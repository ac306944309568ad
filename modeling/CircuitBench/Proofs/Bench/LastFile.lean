import CircuitBench.Proofs.Bench.Verification

/-!
# The last listed file decides a run

The loop over a listing forgets, with every file, whether the files before it were run.  Where
nothing is verified and every execution goes well, a run ends well if the last listed file is
selected, and finds no circuit file otherwise, whatever was run before it
(`run_readable`).  A text pattern that cannot be read ends the run at the first file that needs it,
always with the same fault (`run_unreadable`).

`last_file_decides_run` puts this together: the order of the listing matters unless the patterns
cannot be read for some file, or select all files, or none.  It holds whatever the patterns answer,
so it does not depend on how many digits a number may have or which characters have a name.
-/

namespace CircuitBench.Bench

/-! ## the answer for one file -/

/-- what the text patterns say about a file -/
def Plan.answer (p : Plan) (file : String) : Except Pattern.Fault Bool :=
  selects (stem p.name p.qubits p.depth) (Path.baseName file)

/-- the fault is that of a pattern, and the patterns are the same for all files -/
theorem selects_error_unique {stem a b : String} {e e' : Pattern.Fault}
    (ha : selects stem a = .error e) (hb : selects stem b = .error e') : e = e' := by
  rw [selects] at ha hb
  cases hplain : Pattern.parse (plainPattern stem) with
  | error fault =>
    rw [hplain] at ha hb
    cases ha
    cases hb
    rfl
  | ok plain =>
    rw [hplain] at ha hb
    dsimp only [bind, Except.bind] at ha hb
    split_ifs at ha with ha'
    · cases ha
    split_ifs at hb with hb'
    · cases hb
    cases hlabelled : Pattern.parse (labelledPattern stem) with
    | error fault =>
      rw [hlabelled] at ha hb
      cases ha
      cases hb
      rfl
    | ok labelled =>
      rw [hlabelled] at ha
      cases ha

theorem not_forall_answer {p : Plan} {files : List String} {e : Pattern.Fault}
    (h : ∃ f ∈ files, p.answer f = .error e) : ¬ ∀ f ∈ files, ∃ b, p.answer f = .ok b := by
  obtain ⟨f, hf, he⟩ := h
  intro hread
  obtain ⟨b, hb⟩ := hread f hf
  rw [hb] at he
  cases he

/-! ## the loop -/

section
variable {p : Plan} (hlocal : isLocal p.machine = true) (hv : p.verify = false)
include hlocal hv

theorem perform_runFile_unverified (file : String) {σ : Session} (hσ : Smooth σ) :
    ∃ τ, (runFile p file).perform σ = (.ok true, τ) ∧ Smooth τ := by
  obtain ⟨r, τ, hrun, hfile⟩ := runFile_cases p file σ
  obtain ⟨⟨x, _, _, hx⟩, _, hpass⟩ := hfile.of_smooth hlocal hσ
  have hr : r = .ok true := by
    rw [hpass, Plan.Passes, hv]
    exact fun h => absurd h Bool.false_ne_true
  exact ⟨τ, by rw [hrun, hr], hx.smooth hσ⟩

theorem runFiles_unreadable {e : Pattern.Fault} {files : List String}
    (hfiles : ∃ f ∈ files, p.answer f = .error e) (ran : Bool) {σ : Session} (hσ : Smooth σ) :
    ((runFiles p ran files).perform σ).1 = .error (.pattern e) := by
  induction files generalizing ran σ with
  | nil => simp at hfiles
  | cons file files ih =>
    rw [runFiles]
    cases hfile : p.answer file with
    | error e' =>
      obtain ⟨f, _, hf⟩ := hfiles
      obtain rfl : e' = e := selects_error_unique hfile hf
      rw [Plan.answer] at hfile
      rw [hfile]
      rfl
    | ok b =>
      have hrest : ∃ f ∈ files, p.answer f = .error e := by
        simpa [hfile] using hfiles
      rw [Plan.answer] at hfile
      rw [hfile, Job.perform_bind_ok (Job.perform_lift _ _ _)]
      cases b with
      | false => exact ih hrest false hσ
      | true =>
        obtain ⟨τ, hrun, hτ⟩ := perform_runFile_unverified hlocal hv file hσ
        simp only [Bool.not_true, Bool.false_eq_true, if_false]
        rw [Job.perform_bind_ok hrun]
        exact ih hrest true hτ

end

/-! ## a run -/

section
variable {s : Settings} {qubits : Int} {p : Plan} (hp : s.plan qubits = .ok p)
  (hlocal : isLocal p.machine = true) (hv : p.verify = false) {σ : Session} (hσ : Smooth σ)
include hp hlocal hv hσ

theorem run_unreadable {e : Pattern.Fault} (hfiles : ∃ f ∈ p.listing σ, p.answer f = .error e) :
    ((run s qubits).perform σ).1 = .error (.pattern e) := by
  rw [perform_run hp]
  exact runFiles_unreadable hlocal hv hfiles false hσ

theorem run_readable {selected : String → Bool}
    (hsel : ∀ f ∈ p.listing σ, p.answer f = .ok (selected f)) :
    ((run s qubits).perform σ).1 = goodEnd selected false (p.listing σ) := by
  obtain ⟨r, σ', xs, hrun, _, _, hends⟩ :=
    runFiles_smooth hlocal selected (p.listing σ) hsel false hσ
  rw [perform_run hp, hrun]
  cases hends with
  | passed _ _ => rfl
  | refuted fault i file _ hfails _ _ =>
    refine absurd ?_ hfails
    rw [Plan.Passes, hv]
    exact fun h => absurd h Bool.false_ne_true

theorem run_unverified :
    (∃ e, (∃ f ∈ p.listing σ, p.answer f = .error e) ∧
      ((run s qubits).perform σ).1 = .error (.pattern e)) ∨
    ∃ selected, (∀ f ∈ p.listing σ, p.answer f = .ok (selected f)) ∧
      ((run s qubits).perform σ).1 = goodEnd selected false (p.listing σ) := by
  by_cases hread : ∀ f ∈ p.listing σ, ∃ b, p.answer f = .ok b
  · right
    choose! selected hsel using hread
    exact ⟨selected, hsel, run_readable hp hlocal hv hσ hsel⟩
  · left
    push Not at hread
    obtain ⟨f, hf, hno⟩ := hread
    cases hfile : p.answer f with
    | error e => exact ⟨e, ⟨f, hf, hfile⟩, run_unreadable hp hlocal hv hσ ⟨f, hf, hfile⟩⟩
    | ok b => exact absurd hfile (hno b)

end

/-! ## the end of a listing -/

theorem goodEnd_eq_true_iff (selected : String → Bool) (files : List String) :
    goodEnd selected false files = .ok true ↔ ∃ f ∈ files.getLast?, selected f = true := by
  rw [goodEnd]
  cases files.getLast? with
  | none => simp
  | some f => simp

theorem goodEnd_eq_error_iff (selected : String → Bool) (files : List String) :
    goodEnd selected false files = .error .noCircuitFile ↔
      ∀ f ∈ files.getLast?, selected f = false := by
  rw [goodEnd]
  cases files.getLast? with
  | none => simp
  | some f => simp

theorem goodEnd_const_perm {files files' : List String} (h : files'.Perm files) (b : Bool) :
    goodEnd (fun _ => b) false files' = goodEnd (fun _ => b) false files := by
  have hempty : files' = [] ↔ files = [] := by
    rw [← List.length_eq_zero_iff, h.length_eq, List.length_eq_zero_iff]
  by_cases hnil : files = []
  · rw [hnil, hempty.2 hnil]
  · rw [goodEnd, goodEnd, List.getLast?_eq_some_getLast hnil,
      List.getLast?_eq_some_getLast (mt hempty.1 hnil)]
    rfl

theorem Smooth.relist {σ : Session} (hσ : Smooth σ) (order : List String → List String) :
    Smooth (σ.relist order) :=
  ⟨hσ.outcomes, hσ.clock⟩

theorem listing_perm {order : List String → List String}
    (horder : ∀ paths, (order paths).Perm paths) {σ : Session}
    (hσ : ∀ paths, (σ.order paths).Perm paths) (p : Plan) :
    (p.listing (σ.relist order)).Perm (p.listing σ) :=
  (horder _).trans (hσ _).symm

/-- any listed file can be the last one -/
theorem exists_order_last {p : Plan} {σ : Session} (hσ : ∀ paths, (σ.order paths).Perm paths)
    {f : String} (hf : f ∈ p.listing σ) :
    ∃ order, (∀ paths, (order paths).Perm paths) ∧
      (p.listing (σ.relist order)).getLast? = some f := by
  have hperm : ((p.listing σ).erase f ++ [f]).Perm
      (σ.tree.expand (pathPattern p.name p.qubits p.depth)) :=
    (List.perm_append_singleton ..).trans ((List.perm_cons_erase hf).symm.trans (hσ _))
  obtain ⟨order, horder, hlisting⟩ := exists_order hperm
  refine ⟨order, horder, ?_⟩
  show (order (σ.tree.expand (pathPattern p.name p.qubits p.depth))).getLast? = some f
  rw [hlisting, List.getLast?_concat]

section
variable {s : Settings} {qubits : Int} {p : Plan} (hp : s.plan qubits = .ok p)
  (hlocal : isLocal p.machine = true) (hv : p.verify = false) {σ : Session} (hσ : Smooth σ)
include hp hlocal hv hσ

theorem run_eq_true_iff :
    ((run s qubits).perform σ).1 = .ok true ↔
      (∀ f ∈ p.listing σ, ∃ b, p.answer f = .ok b) ∧
        ∃ f ∈ (p.listing σ).getLast?, p.answer f = .ok true := by
  rcases run_unverified hp hlocal hv hσ with ⟨e, hfiles, hrun⟩ | ⟨selected, hsel, hrun⟩
  · rw [hrun]
    exact iff_of_false nofun fun h => not_forall_answer hfiles h.1
  · rw [hrun, goodEnd_eq_true_iff, and_iff_right fun f hf => ⟨_, hsel f hf⟩]
    refine exists_congr fun f => and_congr_right fun hlast => ?_
    rw [hsel f (List.mem_of_getLast? hlast), Except.ok.injEq]

theorem run_eq_noCircuitFile_iff :
    ((run s qubits).perform σ).1 = .error .noCircuitFile ↔
      (∀ f ∈ p.listing σ, ∃ b, p.answer f = .ok b) ∧
        ∀ f ∈ (p.listing σ).getLast?, p.answer f = .ok false := by
  rcases run_unverified hp hlocal hv hσ with ⟨e, hfiles, hrun⟩ | ⟨selected, hsel, hrun⟩
  · rw [hrun]
    exact iff_of_false nofun fun h => not_forall_answer hfiles h.1
  · rw [hrun, goodEnd_eq_error_iff, and_iff_right fun f hf => ⟨_, hsel f hf⟩]
    refine forall₂_congr fun f hlast => ?_
    rw [hsel f (List.mem_of_getLast? hlast), Except.ok.injEq]

theorem run_eq_pattern_iff (e : Pattern.Fault) :
    ((run s qubits).perform σ).1 = .error (.pattern e) ↔
      ∃ f ∈ p.listing σ, p.answer f = .error e := by
  refine ⟨?_, run_unreadable hp hlocal hv hσ⟩
  intro he
  rcases run_unverified hp hlocal hv hσ with ⟨e', hfiles, hrun⟩ | ⟨selected, hsel, hrun⟩
  · rw [hrun] at he
    cases he
    exact hfiles
  · rw [hrun, goodEnd] at he
    split_ifs at he
    cases he

variable (hlists : ∀ paths, (σ.order paths).Perm paths)
include hlists

/-- where some files are selected and others are not, either kind can come last -/
theorem alike_of_run_eq {selected : String → Bool}
    (hsel : ∀ f ∈ p.listing σ, p.answer f = .ok (selected f))
    (hsame : ∀ order : List String → List String, (∀ paths, (order paths).Perm paths) →
      ((run s qubits).perform (σ.relist order)).1 = ((run s qubits).perform σ).1)
    {f g : String} (hf : f ∈ p.listing σ) (hg : g ∈ p.listing σ) : selected f = selected g := by
  have hlast {h : String} (hh : h ∈ p.listing σ) :
      ((run s qubits).perform σ).1 = .ok true ↔ selected h = true := by
    obtain ⟨order, horder, hend⟩ := exists_order_last hlists hh
    have hsel' : ∀ f ∈ p.listing (σ.relist order), p.answer f = .ok (selected f) :=
      fun f hf => hsel f ((listing_perm horder hlists p).mem_iff.1 hf)
    rw [← hsame order horder, run_readable hp hlocal hv (hσ.relist order) hsel',
      goodEnd_eq_true_iff, hend]
    simp
  rw [Bool.eq_iff_iff, ← hlast hf, ← hlast hg]

theorem run_order_iff :
    (∀ order : List String → List String, (∀ paths, (order paths).Perm paths) →
        ((run s qubits).perform (σ.relist order)).1 = ((run s qubits).perform σ).1) ↔
      (∃ f ∈ p.listing σ, ∃ e, p.answer f = .error e) ∨
        (∀ f ∈ p.listing σ, p.answer f = .ok true) ∨
          ∀ f ∈ p.listing σ, p.answer f = .ok false := by
  constructor
  · intro hsame
    rcases run_unverified hp hlocal hv hσ with ⟨e, ⟨f, hf, he⟩, _⟩ | ⟨selected, hsel, _⟩
    · exact .inl ⟨f, hf, e, he⟩
    · right
      have halike {f g : String} (hf : f ∈ p.listing σ) (hg : g ∈ p.listing σ) :=
        alike_of_run_eq hp hlocal hv hσ hlists hsel hsame hf hg
      by_cases hsome : ∃ f ∈ p.listing σ, selected f = true
      · left
        obtain ⟨f, hf, hfs⟩ := hsome
        intro g hg
        rw [hsel g hg, ← halike hf hg, hfs]
      · right
        push Not at hsome
        intro g hg
        rw [hsel g hg, Bool.eq_false_iff.2 (hsome g hg)]
  · intro hall order horder
    have hperm := listing_perm horder hlists p
    have hσ' := hσ.relist order
    rcases hall with ⟨f, hf, e, he⟩ | hall | hall
    · rw [run_unreadable hp hlocal hv hσ ⟨f, hf, he⟩,
        run_unreadable hp hlocal hv hσ' ⟨f, hperm.mem_iff.2 hf, he⟩]
    · rw [run_readable hp hlocal hv hσ hall,
        run_readable hp hlocal hv hσ' fun f hf => hall f (hperm.mem_iff.1 hf)]
      exact goodEnd_const_perm hperm true
    · rw [run_readable hp hlocal hv hσ hall,
        run_readable hp hlocal hv hσ' fun f hf => hall f (hperm.mem_iff.1 hf)]
      exact goodEnd_const_perm hperm false

end

/-- **The last listed file decides.**  A run without verification whose executions go well ends
well exactly if the last listed file is selected, and finds no circuit file exactly if it is not
(or nothing is listed), provided that the text patterns can be read for every listed file.  It ends
the same way for every order of the listing only if they cannot be read for some file, or if they
select all files, or none. -/
theorem last_file_decides_run (s : Settings) (qubits : Int) (p : Plan)
    (hp : s.plan qubits = .ok p) (hlocal : isLocal p.machine = true) (hv : p.verify = false)
    (σ : Session) (hσ : Smooth σ) (hlists : ∀ paths, (σ.order paths).Perm paths) :
    (((run s qubits).perform σ).1 = .ok true ↔
      (∀ f ∈ p.listing σ, ∃ b, p.answer f = .ok b) ∧
        ∃ f ∈ (p.listing σ).getLast?, p.answer f = .ok true) ∧
    (((run s qubits).perform σ).1 = .error .noCircuitFile ↔
      (∀ f ∈ p.listing σ, ∃ b, p.answer f = .ok b) ∧
        ∀ f ∈ (p.listing σ).getLast?, p.answer f = .ok false) ∧
    (∀ e, ((run s qubits).perform σ).1 = .error (.pattern e) ↔
      ∃ f ∈ p.listing σ, p.answer f = .error e) ∧
    ((∀ order : List String → List String, (∀ paths, (order paths).Perm paths) →
        ((run s qubits).perform (σ.relist order)).1 = ((run s qubits).perform σ).1) ↔
      (∃ f ∈ p.listing σ, ∃ e, p.answer f = .error e) ∨
        (∀ f ∈ p.listing σ, p.answer f = .ok true) ∨
          ∀ f ∈ p.listing σ, p.answer f = .ok false) := by
  refine ⟨run_eq_true_iff hp hlocal hv hσ, run_eq_noCircuitFile_iff hp hlocal hv hσ, ?_, ?_⟩
  · intro e
    exact run_eq_pattern_iff hp hlocal hv hσ e
  · exact run_order_iff hp hlocal hv hσ hlists

/-! ## circuits of one qubit and of ten -/

/-- the circuit of ten qubits is listed for one qubit too, and after the circuit of one -/
def oneAndTen : Session :=
  { Session.initial with
    tree := .dir [("bv", .dir (["bv_n1.qasm", "bv_n10.qasm"].map fun file =>
      (file, .file (.text ""))))]
    order := id }

/-- run the circuits without depth of the benchmark on a simulator -/
def unverified : Settings := ⟨.value "bv", .value "local_sim", .num (.whole 0), .null, .bool false⟩

def unverifiedPlan (qubits : Int) : Plan := ⟨"bv", .value "local_sim", qubits, 0, .null, false⟩

theorem smooth_oneAndTen : Smooth oneAndTen :=
  ⟨by simp [oneAndTen, Session.initial], by simp [oneAndTen, Session.initial]⟩

theorem listing_oneAndTen :
    (unverifiedPlan 1).listing oneAndTen = ["bv/bv_n1.qasm", "bv/bv_n10.qasm"] := by
  decide +kernel

theorem answer_oneAndTen : ∀ f ∈ ["bv/bv_n1.qasm", "bv/bv_n10.qasm"],
    (unverifiedPlan 1).answer f = .ok (f == "bv/bv_n1.qasm") := by
  have hsel : ∀ f ∈ ["bv/bv_n1.qasm", "bv/bv_n10.qasm"],
      ((unverifiedPlan 1).answer f).toOption = some (f == "bv/bv_n1.qasm") := by decide +kernel
  exact fun f hf => ok_of_toOption (hsel f hf)

theorem last_file_decides_run_for_one :
    ((run unverified 1).perform oneAndTen).1 = .error .noCircuitFile ∧
      ¬ ∀ order : List String → List String, (∀ paths, (order paths).Perm paths) →
        ((run unverified 1).perform (oneAndTen.relist order)).1
          = ((run unverified 1).perform oneAndTen).1 := by
  obtain ⟨_, hnone, _, hsame⟩ := last_file_decides_run unverified 1 (unverifiedPlan 1) rfl
    (by decide +kernel) rfl oneAndTen smooth_oneAndTen (fun paths => .refl paths)
  rw [listing_oneAndTen] at hnone hsame
  rw [hnone, hsame]
  have hone := answer_oneAndTen "bv/bv_n1.qasm" (by simp)
  have hten := answer_oneAndTen "bv/bv_n10.qasm" (by simp)
  refine ⟨⟨fun f hf => ⟨_, answer_oneAndTen f hf⟩, ?_⟩, ?_⟩
  · rintro f ⟨⟩
    exact hten
  · rintro (⟨f, hf, e, he⟩ | hall | hall)
    · rw [answer_oneAndTen f hf] at he
      cases he
    · have h := hall "bv/bv_n10.qasm" (by simp)
      rw [hten] at h
      cases h
    · have h := hall "bv/bv_n1.qasm" (by simp)
      rw [hone] at h
      cases h

/-- a circuit of one qubit is there, selected and run; listed before another one it counts for
nothing, and listed after it the run ends well -/
theorem unselected_last_file_fails_run :
    (unverifiedPlan 1).listing oneAndTen = ["bv/bv_n1.qasm", "bv/bv_n10.qasm"] ∧
      (unverifiedPlan 1).answer "bv/bv_n1.qasm" = .ok true ∧
      ((run unverified 1).perform oneAndTen).1 = .error .noCircuitFile ∧
      ((run unverified 1).perform (oneAndTen.relist List.reverse)).1 = .ok true := by
  have hp : unverified.plan 1 = .ok (unverifiedPlan 1) := rfl
  have hlocal : isLocal (unverifiedPlan 1).machine = true := by decide +kernel
  have hback : (unverifiedPlan 1).listing (oneAndTen.relist List.reverse)
      = ["bv/bv_n10.qasm", "bv/bv_n1.qasm"] := by decide +kernel
  have hanswer : ∀ f ∈ (unverifiedPlan 1).listing (oneAndTen.relist List.reverse),
      (unverifiedPlan 1).answer f = .ok (f == "bv/bv_n1.qasm") := by
    rw [hback]
    exact fun f hf => answer_oneAndTen f (by simpa [or_comm] using hf)
  refine ⟨listing_oneAndTen, answer_oneAndTen _ (by simp), ?_, ?_⟩
  · rw [run_readable hp hlocal rfl smooth_oneAndTen (listing_oneAndTen ▸ answer_oneAndTen),
      listing_oneAndTen, goodEnd_eq_error_iff]
    simp
  · rw [run_readable hp hlocal rfl (smooth_oneAndTen.relist _) hanswer, hback, goodEnd_eq_true_iff]
    simp

end CircuitBench.Bench
