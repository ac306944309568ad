import CircuitBench.Command
import CircuitBench.Proofs.Bench.Trial

/-!
# The discipline of a whole run

A run over qubit numbers is a sequence of trials that went well, each with its record, and after
them perhaps the calls of one more trial that has none: of a whole one, or of one that was cut
short (`Leaves`).  A stretch of trials that went well can be put in front of what a run leaves
behind (`Leaves.after`); that carries the loop over the files (`runFiles_ends`) and the loop over
the qubit numbers (`runFrom_leaves`).

`run_leaves_whole_blocks` puts this together for the benchmark tool.  Numbers of qubits and depths
are taken to be printed with all their digits.
-/

namespace CircuitBench.Bench

/-! ## how a run ends -/

/-- trials that went well, then perhaps calls of one more without a record; if that one was
executed with another status than the good one, the run ends quietly -/
structure Leaves (σ σ' : Session) (xs : List Trial) (rest : List Call) (quiet : Prop) : Prop where
  events : σ'.events = σ.events ++ xs.flatMap Trial.events ++ rest.map .call
  went : Went σ xs
  stop : ClockReal σ → (∃ x : Trial, rest = x.calls) → ∀ status counts time,
    itemAt .plain σ.outcomes xs.length = .done status counts time → status ≠ "DONE" → quiet

/-- no call, the beginning of a block, or the whole block of a trial with the property -/
def IsRest (P : Trial → Prop) (rest : List Call) : Prop :=
  rest = [] ∨ rest = [.program] ∨ ∃ x, P x ∧ rest = x.calls

theorem IsRest.mono {P Q : Trial → Prop} {rest : List Call} (hPQ : ∀ x, P x → Q x)
    (h : IsRest P rest) : IsRest Q rest :=
  h.imp_right fun h => h.imp_right fun ⟨x, hx, hr⟩ => ⟨x, hPQ x hx, hr⟩

theorem Trial.calls_ne_nil (x : Trial) : x.calls ≠ [] := by
  simp [Trial.calls]

theorem Trial.calls_ne_program (x : Trial) : x.calls ≠ [.program] := by
  simp [Trial.calls]

namespace Leaves

variable {σ τ σ' : Session} {xs ys : List Trial} {rest : List Call} {quiet : Prop}

theorem nothing (σ : Session) (quiet : Prop) : Leaves σ σ [] [] quiet where
  events := by simp
  went := .nil σ
  stop := by
    rintro _ ⟨x, hx⟩
    exact absurd hx.symm x.calls_ne_nil

theorem of_stretch (h : Stretch σ τ xs) (quiet : Prop) : Leaves σ τ xs [] quiet where
  events := by simp [h.events]
  went := h.went
  stop := by
    rintro _ ⟨x, hx⟩
    exact absurd hx.symm x.calls_ne_nil

theorem imp {quiet' : Prop} (h : Leaves σ σ' xs rest quiet) (hq : quiet → quiet') :
    Leaves σ σ' xs rest quiet' where
  events := h.events
  went := h.went
  stop := by
    intro hσ hrest status counts time ho hs
    exact hq (h.stop hσ hrest status counts time ho hs)

theorem after (h : Stretch σ τ xs) (h' : Leaves τ σ' ys rest quiet) :
    Leaves σ σ' (xs ++ ys) rest quiet where
  events := by simp [h'.events, h.events]
  went := h.went.append h.outcomes h.readings h'.went
  stop := by
    intro hσ hrest status counts time ho
    rw [List.length_append, ← h.outcomes] at ho
    exact h'.stop (h.clockReal hσ) hrest status counts time ho

end Leaves

/-- how a loop over files ends: all went well, or it left something behind -/
def Ends (P : Trial → Prop) (σ σ' : Session) (r : Except Fault Bool) : Prop :=
  ∃ xs : List Trial, (∀ x ∈ xs, P x) ∧
    ((r = .ok true ∧ Stretch σ σ' xs) ∨
      r ≠ .ok true ∧ ∃ rest, IsRest P rest ∧ Leaves σ σ' xs rest (r = .ok false))

theorem Ends.after {P : Trial → Prop} {σ τ σ' : Session} {xs : List Trial} {r : Except Fault Bool}
    (hP : ∀ x ∈ xs, P x) (h : Stretch σ τ xs) (h' : Ends P τ σ' r) : Ends P σ σ' r := by
  obtain ⟨ys, hys, ⟨hr, hs⟩ | ⟨hr, rest, hrest, hl⟩⟩ := h'
  · exact ⟨xs ++ ys, List.forall_mem_append.2 ⟨hP, hys⟩, .inl ⟨hr, h.trans hs⟩⟩
  · exact ⟨xs ++ ys, List.forall_mem_append.2 ⟨hP, hys⟩, .inr ⟨hr, rest, hrest, hl.after h⟩⟩

theorem Ends.mono {P Q : Trial → Prop} {σ σ' : Session} {r : Except Fault Bool}
    (hPQ : ∀ x, P x → Q x) (h : Ends P σ σ' r) : Ends Q σ σ' r := by
  obtain ⟨xs, hxs, hs | ⟨hr, rest, hrest, hl⟩⟩ := h
  · exact ⟨xs, fun x hx => hPQ x (hxs x hx), .inl hs⟩
  · exact ⟨xs, fun x hx => hPQ x (hxs x hx), .inr ⟨hr, rest, hrest.mono hPQ, hl⟩⟩

theorem Ends.nothing {P : Trial → Prop} (σ : Session) (fault : Fault) : Ends P σ σ (.error fault) :=
  ⟨[], by simp, .inr ⟨by simp, [], .inl rfl, .nothing σ _⟩⟩

/-! ## the files of one qubit number -/

/-- running one file: the loop goes on after a trial that went well, and ends otherwise -/
theorem FileRun.ends {p : Plan} {file : String} {σ σ' : Session} {r : Except Fault Bool}
    (h : FileRun p file σ σ' r) :
    (r = .ok true ∧ ∃ x : Trial, x.plan = p ∧ Stretch σ σ' [x]) ∨
      r ≠ .ok true ∧ Ends (·.plan = p) σ σ' r := by
  cases h with
  | refused fault hevents _ =>
    refine .inr ⟨by simp, [], by simp,
      .inr ⟨by simp, [.program], .inr (.inl rfl), ?_, .nil σ, ?_⟩⟩
    · simpa using hevents
    · rintro _ ⟨x, hx⟩
      exact absurd hx.symm x.calls_ne_program
  | unrecorded r account hevents hr hstop _ =>
    have hrest : IsRest (·.plan = p) (Trial.calls ⟨p, file, account, ""⟩) :=
      .inr (.inr ⟨_, rfl, rfl⟩)
    refine .inr ⟨hr, [], by simp, .inr ⟨hr, _, hrest, ?_, .nil σ, ?_⟩⟩
    · simpa using hevents
    · intro hσ _
      exact hstop hσ
  | recorded r account time hstretch hr _ =>
    by_cases ht : r = .ok true
    · exact .inl ⟨ht, ⟨p, file, account, time⟩, rfl, hstretch⟩
    · refine .inr ⟨ht, [⟨p, file, account, time⟩], by simp, .inr ⟨ht, [], .inl rfl, ?_⟩⟩
      exact .of_stretch hstretch _

theorem runFiles_ends (p : Plan) (files : List String) (ran : Bool) (σ : Session) :
    ∃ r σ', (runFiles p ran files).perform σ = (r, σ') ∧ Ends (·.plan = p) σ σ' r := by
  induction files generalizing ran σ with
  | nil =>
    cases ran with
    | false => exact ⟨_, _, rfl, .nothing σ _⟩
    | true => exact ⟨_, _, rfl, [], by simp, .inl ⟨rfl, .refl σ⟩⟩
  | cons file files ih =>
    rw [runFiles]
    cases hsel : selects (stem p.name p.qubits p.depth) (Path.baseName file) with
    | error fault => exact ⟨_, _, Job.perform_bind_error rfl, .nothing σ _⟩
    | ok selected =>
      rw [Job.perform_bind_ok (Job.perform_lift _ _ _)]
      cases selected with
      | false => exact ih false σ
      | true =>
        simp only [Bool.not_true, Bool.false_eq_true, if_false]
        obtain ⟨r, τ, hrun, hfile⟩ := runFile_cases p file σ
        rcases hfile.ends with ⟨rfl, x, hx, hstretch⟩ | ⟨hr, hends⟩
        · rw [Job.perform_bind_ok hrun]
          obtain ⟨r, σ', hrest, hends⟩ := ih true τ
          exact ⟨r, σ', hrest, hends.after (by simpa using hx) hstretch⟩
        · rcases r with fault | _ | _
          · exact ⟨_, _, Job.perform_bind_error hrun, hends⟩
          · exact ⟨_, _, Job.perform_bind_ok hrun, hends⟩
          · exact absurd rfl hr

/-! ## the qubit numbers -/

def Trial.Of (s : Settings) (qubits : Int) (x : Trial) : Prop :=
  x.plan.qubits = qubits ∧ s.Planned x.plan

theorem run_ends (s : Settings) (qubits : Int) (σ : Session) :
    ∃ r σ', (run s qubits).perform σ = (r, σ') ∧ Ends (Trial.Of s qubits) σ σ' r := by
  cases hp : s.plan qubits with
  | error fault =>
    rw [run, hp]
    exact ⟨_, _, Job.perform_bind_error rfl, .nothing σ _⟩
  | ok p =>
    rw [perform_run hp]
    obtain ⟨r, σ', hrun, hends⟩ := runFiles_ends p (p.listing σ) false σ
    refine ⟨r, σ', hrun, hends.mono ?_⟩
    rintro x rfl
    exact s.plan_eq_ok_iff.1 hp

def Trial.Within (s : Settings) (first last : Int) (x : Trial) : Prop :=
  first ≤ x.plan.qubits ∧ x.plan.qubits ≤ last ∧ s.Planned x.plan

theorem Trial.Of.within {s : Settings} {first last qubits : Int} {x : Trial} (h : x.Of s qubits)
    (hf : first ≤ qubits) (hl : qubits ≤ last) : x.Within s first last := by
  obtain ⟨rfl, hp⟩ := h
  exact ⟨hf, hl, hp⟩

theorem Trial.Within.mono {s : Settings} {first first' last : Int} {x : Trial}
    (h : x.Within s first' last) (hf : first ≤ first') : x.Within s first last :=
  ⟨hf.trans h.1, h.2⟩

theorem pairwise_qubits {s : Settings} {qubits : Int} {xs : List Trial}
    (h : ∀ x ∈ xs, x.Of s qubits) : (xs.map (·.plan.qubits)).Pairwise (· ≤ ·) := by
  rw [List.pairwise_map]
  apply List.pairwise_of_forall_mem_list
  intro x hx y hy
  rw [(h x hx).1, (h y hy).1]

theorem runFrom_leaves (s : Settings) (last : Int) (count : Nat) (first : Int)
    (hlast : count ≠ 0 → first + count ≤ last + 1) (σ : Session) :
    ∃ r σ' xs rest, (runFrom s count first).perform σ = (r, σ') ∧
      (∀ x ∈ xs, x.Within s first last) ∧ (xs.map (·.plan.qubits)).Pairwise (· ≤ ·) ∧
      IsRest (Trial.Within s first last) rest ∧ Leaves σ σ' xs rest (r = .ok ()) := by
  induction count generalizing first σ with
  | zero =>
    exact ⟨_, _, [], [], rfl, by simp, by simp, .inl rfl, .nothing σ _⟩
  | succ count ih =>
    have hfirst : first ≤ last := by omega
    obtain ⟨r, τ, hrun, xs, hxs, ⟨rfl, hstretch⟩ | ⟨hr, rest, hrest, hleaves⟩⟩ := run_ends s first σ
    · -- all files went well, and what the remaining numbers leave behind comes after them
      obtain ⟨r, σ', ys, rest, hrun', hys, hsorted, hrest, hleaves⟩ := ih (first + 1) (by omega) τ
      refine ⟨r, σ', xs ++ ys, rest, ?_, ?_, ?_, ?_, hleaves.after hstretch⟩
      · rw [runFrom, Job.perform_bind_ok hrun]
        exact hrun'
      · have hxs' : ∀ x ∈ xs, x.Within s first last := fun x hx => (hxs x hx).within le_rfl hfirst
        have hys' : ∀ x ∈ ys, x.Within s first last := fun x hx => (hys x hx).mono (by omega)
        exact List.forall_mem_append.2 ⟨hxs', hys'⟩
      · rw [List.map_append, List.pairwise_append]
        refine ⟨pairwise_qubits hxs, hsorted, ?_⟩
        simp only [List.mem_map]
        rintro _ ⟨x, hx, rfl⟩ _ ⟨y, hy, rfl⟩
        have hx := (hxs x hx).1
        have hy := (hys y hy).1
        omega
      · exact hrest.mono fun x hx => hx.mono (by omega)
    · -- no other number is run, whether the files ended quietly or with a fault
      have hstop : ∃ r', (runFrom s (count + 1) first).perform σ = (r', τ) ∧
          (r = .ok false → r' = .ok ()) := by
        rw [runFrom]
        rcases r with fault | _ | _
        · exact ⟨_, Job.perform_bind_error hrun, nofun⟩
        · exact ⟨_, Job.perform_bind_ok hrun, fun _ => rfl⟩
        · exact absurd rfl hr
      obtain ⟨r', hrun', hquiet⟩ := hstop
      refine ⟨r', τ, xs, rest, hrun', ?_, pairwise_qubits hxs, ?_, hleaves.imp hquiet⟩
      · exact fun x hx => (hxs x hx).within le_rfl hfirst
      · exact hrest.mono fun x hx => hx.within le_rfl hfirst

/-! ## the benchmark tool -/

def isExecution : Event → Bool
  | .call (.execute _) => true
  | _ => false

theorem Trial.countP_calls (x : Trial) : (x.calls.map Event.call).countP isExecution = 1 := by
  rw [Trial.calls]
  cases x.plan.machine.startsWith "ibmqx" <;> rfl

theorem Trial.countP_flatMap_events (xs : List Trial) :
    (xs.flatMap Trial.events).countP isExecution = xs.length := by
  induction xs with
  | nil => rfl
  | cons x xs ih =>
    rw [List.flatMap_cons, List.countP_append, ih, Trial.events, List.countP_append, x.countP_calls,
      List.length_cons, Nat.add_comm]
    rfl

/-- a run over the qubit numbers from `first` to `last`: what it leaves behind, and how it ends -/
structure Disciplined (s : Settings) (first last : Int) (σ σ' : Session) (r : Except Fault Unit)
    (xs : List Trial) (rest : List Call) : Prop where
  /-- whole blocks, each with its record, and after them calls without a record -/
  events : σ'.events = σ.events ++ (xs.flatMap Trial.events ++ rest.map .call)
  /-- these are no calls, the beginning of a block, or a whole one -/
  remainder : IsRest (Trial.Within s first last) rest
  within : ∀ x ∈ xs, x.Within s first last
  sorted : (xs.map (·.plan.qubits)).Pairwise (· ≤ ·)
  /-- the executions of the whole blocks went well, and their records have the times of these -/
  went : Went σ xs
  /-- an execution with another status is the last call of the run, and its block has no record -/
  stop : ∀ k < (xs.flatMap Trial.events ++ rest.map Event.call).countP isExecution,
    ∀ status counts time, itemAt .plain σ.outcomes k = .done status counts time →
      status ≠ "DONE" → k = xs.length ∧ (∃ x : Trial, x.Within s first last ∧ rest = x.calls) ∧
        (ClockReal σ → r = .ok ())

theorem Leaves.disciplined {s : Settings} {first last : Int} {σ σ' : Session}
    {r : Except Fault Unit} {xs : List Trial} {rest : List Call}
    (h : Leaves σ σ' xs rest (r = .ok ()))
    (hxs : ∀ x ∈ xs, x.Within s first last) (hsorted : (xs.map (·.plan.qubits)).Pairwise (· ≤ ·))
    (hrest : IsRest (Trial.Within s first last) rest) :
    Disciplined s first last σ σ' r xs rest where
  events := by rw [h.events, List.append_assoc]
  remainder := hrest
  within := hxs
  sorted := hsorted
  went := h.went
  stop := by
    intro k hk status counts time ho hs
    -- the executions of the trials went well, so this one is left to the remainder
    have hge : xs.length ≤ k := by
      by_contra hlt
      obtain ⟨counts', time', ho'⟩ := h.went.done (k := k) (by omega)
      rw [ho'] at ho
      exact hs (Outcome.done.inj ho).1.symm
    rw [List.countP_append, Trial.countP_flatMap_events] at hk
    rcases hrest with rfl | rfl | ⟨x, hx, rfl⟩
    · exact absurd hk (by simpa using hge)
    · exact absurd hk (by simpa [isExecution] using hge)
    · rw [x.countP_calls] at hk
      obtain rfl : k = xs.length := by omega
      exact ⟨rfl, ⟨x, hx, rfl⟩, fun hσ => h.stop hσ ⟨x, rfl⟩ status counts time ho hs⟩

theorem settings_eq (o : Options.Benchmark) :
    Command.settings o = ⟨o.name, o.backend, Command.valueOf o.depth,
      (o.seed.map Command.valueOf).getD .null, .bool o.verify⟩ := by
  rw [Command.settings]
  cases o.seed <;> rfl

/-- a run of the benchmark tool, whatever the directory holds and however the executions end, is a
sequence of whole blocks with their records and at most one block without -/
theorem run_leaves_whole_blocks (o : Options.Benchmark) (hlist : o.list = false) (first last : Int)
    (hfirst : (Command.valueOf o.first).toWhole = .ok first)
    (hlast : (Command.valueOf o.last).toWhole = .ok last) (σ : Session) :
    ∃ r σ' xs rest, (Command.benchmarkWith o).perform σ = (r, σ') ∧
      Disciplined
        ⟨o.name, o.backend, Command.valueOf o.depth, (o.seed.map Command.valueOf).getD .null,
          .bool o.verify⟩
        first (if last = 0 then first else last) σ σ' r xs rest := by
  obtain ⟨r, σ', xs, rest, hrun, hxs, hsorted, hrest, hleaves⟩ :=
    runFrom_leaves (Command.settings o) (if last = 0 then first else last)
      ((if last = 0 then first else last) + 1 - first).toNat first (by omega) σ
  rw [settings_eq] at hxs hrest
  refine ⟨r, σ', xs, rest, ?_, hleaves.disciplined hxs hsorted hrest⟩
  rw [Command.benchmarkWith, hlist, if_neg Bool.false_ne_true, hfirst, hlast,
    Job.perform_bind_ok (Job.perform_lift _ _ _), Job.perform_bind_ok (Job.perform_lift _ _ _)]
  exact hrun

/-- circuits of three qubits and of four, of which the second fails -/
def failing : Session :=
  { Session.initial with
    tree := .dir [("bv", .dir
      (["bv_n3.qasm", "bv_n4.qasm"].map fun name => (name, .file (.text ""))))]
    outcomes := [.done "DONE" [] none, .done "ERROR" [] none] }

theorem run_leaves_failed_second_block :
    ∃ r σ' xs rest,
      (Command.benchmarkWith ⟨.value "bv", .value "3", .value "4", .value "0", .value "local_sim",
        none, false, false⟩).perform failing = (r, σ') ∧
      Disciplined ⟨.value "bv", .value "local_sim", .text "0", .null, .bool false⟩ 3 4
        failing σ' r xs rest := by
  have hthree : (Command.valueOf (.value "3")).toWhole = .ok 3 := by rfl
  have hfour : (Command.valueOf (.value "4")).toWhole = .ok 4 := by rfl
  exact run_leaves_whole_blocks
    ⟨.value "bv", .value "3", .value "4", .value "0", .value "local_sim", none, false, false⟩
    rfl 3 4 hthree hfour failing

end CircuitBench.Bench
