import CircuitBench.Proofs.Bench.Confirmation
import CircuitBench.Proofs.Bench.Files

/-!
# One file of a benchmark

A trial is one file that is loaded and executed.  Its calls are a block: a new collection, an
account if the backend is remote, the file, the execution; a trial that went well has its record
printed after them (`Trial.events`).  The time in the record is what the backend reports, or what
the clock says (`Went`).

`runFile_cases` says all that running a file can come to: no backend to run it on, an execution
without a record, or a trial that went well, which may still be refuted by its reference.
-/

namespace CircuitBench

/-- the counts of an execution; one that gave no result has none -/
def Outcome.counts : Outcome → List (String × Json)
  | .done _ counts _ => counts
  | .failed _ _ => []
  | .interrupted _ => []

namespace Bench

def Plan.machine (p : Plan) : String := p.backend.getD Given.blankText

structure Trial where
  plan : Plan
  file : String
  /-- the token and the address of the account, where one is needed -/
  account : Json × Json
  /-- the time as it is printed -/
  time : String

namespace Trial

/-- the calls of a trial: an account is opened for a remote backend only -/
def calls (x : Trial) : List Call :=
  .program ::
    (if x.plan.machine.startsWith "ibmqx" then [.setAccount x.account.1 x.account.2] else []) ++
    [.load x.file x.plan.name,
      .execute ⟨[x.plan.name], x.plan.machine, 1, 5, 86400, x.plan.seed⟩]

def record (x : Trial) : String :=
  x.plan.name ++ "," ++ x.plan.machine ++ "," ++ toString x.plan.qubits ++ "," ++
    toString x.plan.depth ++ "," ++ x.time ++ "\n"

/-- what a trial that went well leaves behind -/
def events (x : Trial) : List Event := x.calls.map .call ++ [.printed x.record]

theorem calls_of_isLocal {x : Trial} (h : isLocal x.plan.machine = true) :
    x.calls = fileCalls x.plan x.plan.machine x.file := by
  rw [calls, ← isRemote, isRemote_of_isLocal h]
  rfl

end Trial

/-! ## the clock -/

theorem ClockReal.tick {σ : Session} (h : ClockReal σ) : ClockReal σ.tick :=
  fun t ht => h t (mem_of_mem_nextOf ht)

/-- the time between two looks at the clock is a number -/
theorem ClockReal.sub {σ : Session} (h : ClockReal σ) :
    ∃ d, (nextOf (.real 0) σ.tick.clock).1.sub (nextOf (.real 0) σ.clock).1 = .ok d := by
  obtain ⟨x, hx⟩ := h.now
  obtain ⟨y, hy⟩ := h.tick.now
  rw [hx, hy]
  exact ⟨_, rfl⟩

/-! ## trials that went well -/

/-- The executions of the trials went well.  A remote backend has reported the time that is printed;
otherwise it is the time between the looks at the clock before and after the execution. -/
def Went (σ : Session) (xs : List Trial) : Prop :=
  ∀ k x, xs[k]? = some x → ∃ counts reported elapsed,
    itemAt .plain σ.outcomes k = .done "DONE" counts reported ∧
    (itemAt (.real 0) σ.clock (2 * k + 1)).sub (itemAt (.real 0) σ.clock (2 * k)) = .ok elapsed ∧
    if x.plan.machine.startsWith "ibmqx" then ∃ t, reported = some t ∧ x.time = t.displayText
    else x.time = elapsed.text

theorem Went.nil (σ : Session) : Went σ [] := by simp [Went]

theorem Went.done {σ : Session} {xs : List Trial} (h : Went σ xs) {k : Nat} (hk : k < xs.length) :
    ∃ counts time, itemAt .plain σ.outcomes k = .done "DONE" counts time := by
  obtain ⟨counts, time, _, ho, _⟩ := h k _ (List.getElem?_eq_getElem hk)
  exact ⟨counts, time, ho⟩

/-- every trial uses one outcome and two looks at the clock -/
theorem Went.append {σ τ : Session} {xs ys : List Trial} (h : Went σ xs)
    (houtcomes : ∀ k, itemAt .plain τ.outcomes k = itemAt .plain σ.outcomes (xs.length + k))
    (hreadings : ∀ k, itemAt (.real 0) τ.clock k = itemAt (.real 0) σ.clock (2 * xs.length + k))
    (h' : Went τ ys) : Went σ (xs ++ ys) := by
  intro k x hk
  rw [List.getElem?_append] at hk
  split_ifs at hk with hx
  · exact h k x hk
  · have hstart : 2 * xs.length + 2 * (k - xs.length) = 2 * k := by omega
    have hstop : 2 * xs.length + (2 * (k - xs.length) + 1) = 2 * k + 1 := by omega
    have hy := h' (k - xs.length) x hk
    rwa [houtcomes, hreadings, hreadings, hstart, hstop, Nat.add_sub_cancel' (by omega)] at hy

/-- from one session to the other the trials went well, one after the other, and nothing else
happened -/
structure Stretch (σ σ' : Session) (xs : List Trial) : Prop where
  events : σ'.events = σ.events ++ xs.flatMap Trial.events
  tree : σ'.tree = σ.tree
  order : σ'.order = σ.order
  clock : ∀ t ∈ σ'.clock, t ∈ σ.clock
  supply : ∀ o ∈ σ'.outcomes, o ∈ σ.outcomes
  outcomes : ∀ k, itemAt .plain σ'.outcomes k = itemAt .plain σ.outcomes (xs.length + k)
  readings : ∀ k, itemAt (.real 0) σ'.clock k = itemAt (.real 0) σ.clock (2 * xs.length + k)
  went : Went σ xs

namespace Stretch

theorem refl (σ : Session) : Stretch σ σ [] where
  events := by simp
  tree := rfl
  order := rfl
  clock := fun _ h => h
  supply := fun _ h => h
  outcomes := by simp
  readings := by simp
  went := .nil σ

theorem trans {σ τ υ : Session} {xs ys : List Trial} (h : Stretch σ τ xs) (h' : Stretch τ υ ys) :
    Stretch σ υ (xs ++ ys) where
  events := by rw [h'.events, h.events, List.flatMap_append, List.append_assoc]
  tree := h'.tree.trans h.tree
  order := h'.order.trans h.order
  clock := fun t ht => h.clock t (h'.clock t ht)
  supply := fun o ho => h.supply o (h'.supply o ho)
  outcomes := fun k => by rw [h'.outcomes, h.outcomes, List.length_append, Nat.add_assoc]
  readings := fun k => by
    rw [h'.readings, h.readings, List.length_append, Nat.mul_add, Nat.add_assoc]
  went := h.went.append h.outcomes h.readings h'.went

theorem clockReal {σ τ : Session} {xs : List Trial} (h : Stretch σ τ xs) (hσ : ClockReal σ) :
    ClockReal τ :=
  fun t ht => hσ t (h.clock t ht)

theorem smooth {σ τ : Session} {xs : List Trial} (h : Stretch σ τ xs) (hσ : Smooth σ) : Smooth τ :=
  ⟨fun o ho => hσ.outcomes o (h.supply o ho), h.clockReal hσ.clock⟩

theorem calls {σ τ : Session} {xs : List Trial} (h : Stretch σ τ xs) :
    τ.calls = σ.calls ++ xs.flatMap Trial.calls := by
  have hcalls (cs : List Call) : (cs.map Event.call).filterMap Event.call? = cs := by
    rw [List.filterMap_map]
    exact List.filterMap_some
  have hevents (x : Trial) : x.events.filterMap Event.call? = x.calls := by
    rw [Trial.events, List.filterMap_append, hcalls]
    exact List.append_nil _
  rw [Session.calls, h.events, List.filterMap_append, List.filterMap_flatMap]
  simp only [hevents]
  rfl

end Stretch

theorem timeText_eq_ok_iff (backend : String) (reported : Option Json) (elapsed : Number)
    (text : String) :
    timeText backend reported elapsed = .ok text ↔
      if isRemote backend then ∃ t, reported = some t ∧ text = t.displayText
      else text = elapsed.text := by
  cases hremote : isRemote backend with
  | false => simp [timeText, hremote, eq_comm]
  | true =>
    cases reported with
    | none => simp [timeText, hremote]
    | some t => simp [timeText, hremote, eq_comm]

theorem Stretch.one {σ : Session} {x : Trial} {counts : List (String × Json)}
    {reported : Option Json} {elapsed : Number}
    (ho : itemAt .plain σ.outcomes 0 = .done doneStatus counts reported)
    (hsub : (nextOf (.real 0) σ.tick.clock).1.sub (nextOf (.real 0) σ.clock).1 = .ok elapsed)
    (htime : timeText x.plan.machine reported elapsed = .ok x.time) :
    Stretch σ ((σ.tick.say (x.calls.map .call)).spend.tick.say [.printed x.record]) [x] where
  events := by simp [Session.spend_say, Session.tick_say, Trial.events]; rfl
  tree := rfl
  order := rfl
  clock := fun t ht => mem_of_mem_nextOf (mem_of_mem_nextOf ht)
  supply := fun o ho => mem_of_mem_nextOf ho
  outcomes := fun k => by rw [List.length_singleton, Nat.add_comm, itemAt_succ]; rfl
  readings := fun k => by
    rw [List.length_singleton, Nat.mul_one, Nat.add_comm, itemAt_succ, itemAt_succ]
    rfl
  went := by
    intro k y hy
    obtain rfl : k = 0 := Nat.lt_one_iff.1 (List.getElem?_eq_some_iff.1 hy).1
    obtain rfl : x = y := Option.some.inj hy
    refine ⟨counts, reported, elapsed, ho, ?_, (timeText_eq_ok_iff ..).1 htime⟩
    rw [Nat.mul_zero, itemAt_succ, itemAt_zero, itemAt_zero]
    exact hsub

/-! ## all that running a file can come to -/

inductive FileRun (p : Plan) (file : String) (σ σ' : Session) : Except Fault Bool → Prop
  /-- there is no backend to run it on -/
  | refused (fault : Fault) (hevents : σ'.events = σ.events ++ [.call .program])
      (hlocal : isLocal p.machine = false) : FileRun p file σ σ' (.error fault)
  /-- it was executed, and no record was printed -/
  | unrecorded (r : Except Fault Bool) (account : Json × Json)
      (hevents : σ'.events = σ.events ++ (Trial.calls ⟨p, file, account, ""⟩).map .call)
      (hr : r ≠ .ok true)
      (hstop : ClockReal σ → ∀ status counts time,
        itemAt .plain σ.outcomes 0 = .done status counts time → status ≠ doneStatus → r = .ok false)
      (hdone : ClockReal σ → isLocal p.machine = true →
        ∀ counts time, itemAt .plain σ.outcomes 0 ≠ .done doneStatus counts time) :
      FileRun p file σ σ' r
  /-- its record was printed; only a reference can refute it then -/
  | recorded (r : Except Fault Bool) (account : Json × Json) (time : String)
      (hstretch : Stretch σ σ' [⟨p, file, account, time⟩]) (hr : r ≠ .ok false)
      (htrue : r = .ok true ↔
        (p.verify = true → Confirms σ.tree p.name file (itemAt .plain σ.outcomes 0).counts)) :
      FileRun p file σ σ' r

/-- an account is opened, or none is needed, or the backend cannot be used -/
theorem access_cases (backend : String) (σ : Session) :
    (∃ fault, (access backend).perform σ = (.error fault, σ) ∧ isLocal backend = false) ∨
      ∃ account : Json × Json, (access backend).perform σ = (.ok (), σ.say
        ((if isRemote backend then [.setAccount account.1 account.2] else []).map .call)) := by
  rw [access]
  cases hremote : isRemote backend with
  | true =>
    have hlocal : isLocal backend = false := by
      rw [Bool.eq_false_iff]
      intro h
      rw [isRemote_of_isLocal h] at hremote
      cases hremote
    obtain ⟨r, hr⟩ := Job.perform_account σ
    simp only [if_true]
    rcases r with fault | ⟨token, url⟩
    · exact .inl ⟨fault, Job.perform_bind_error hr, hlocal⟩
    · exact .inr ⟨(token, url), Job.perform_bind_ok hr⟩
  | false =>
    cases hlocal : isLocal backend with
    | true => exact .inr ⟨(.null, .null), rfl⟩
    | false => exact .inl ⟨.unsupportedBackend, rfl, rfl⟩

theorem isLocal_blankText : isLocal Given.blankText = false := by
  rw [isLocal, String.startsWith_string_eq_false_iff]
  rintro ⟨t, ht⟩
  cases ht

/-- what follows an execution that was begun at a time -/
def judge (p : Plan) (backend file : String) (start : Number) : Job Bool := do
  let (status, counts, time) ← Job.nextOutcome
  let stop ← Job.now
  let elapsed ← Job.lift .number (stop.sub start)
  if status ≠ doneStatus then return false
  Job.printLine (p.record backend (← Job.lift id (timeText backend time elapsed)))
  if p.verify then verify counts p.name file
  return true

theorem runFile_eq (p : Plan) (file : String) :
    runFile p file = (do
      Job.call .program
      let backend ← Job.given (.noMember Given.blankKind "startswith") p.backend
      access backend
      Job.call (.load file p.name)
      let start ← Job.now
      Job.call (.execute (p.execution backend))
      judge p backend file start) := rfl

section
variable (p : Plan) (backend file : String) (τ : Session)

theorem perform_record (text : String) (counts : List (String × Json)) :
    ∃ r, (do
        Job.printLine (p.record backend text)
        if p.verify then verify counts p.name file
        return true : Job Bool).perform τ
          = (r, τ.say [.printed (p.record backend text ++ "\n")]) ∧
      r ≠ .ok false ∧
      (r = .ok true ↔ (p.verify = true → Confirms τ.tree p.name file counts)) := by
  rw [Job.perform_bind_ok (Job.perform_printLine _ _)]
  cases hv : p.verify with
  | false => exact ⟨.ok true, rfl, by simp⟩
  | true =>
    obtain ⟨r, hr, hiff⟩ := perform_verify counts p.name file
      (τ.say [.printed (p.record backend text ++ "\n")])
    have htree : (τ.say [.printed (p.record backend text ++ "\n")]).tree = τ.tree := rfl
    rw [htree] at hiff
    cases r with
    | error fault => exact ⟨.error fault, Job.perform_bind_error hr, by simpa using hiff⟩
    | ok => exact ⟨.ok true, Job.perform_bind_ok hr, by simpa using hiff⟩

end

theorem judge_cases (p : Plan) (backend file : String) (start : Number) (τ : Session) :
    ∃ r τ', (judge p backend file start).perform τ = (r, τ') ∧
      ((τ'.events = τ.events ∧ r ≠ .ok true ∧
        ∀ status counts time, itemAt .plain τ.outcomes 0 = .done status counts time →
          (∃ d, (nextOf (.real 0) τ.clock).1.sub start = .ok d) →
          (status ≠ doneStatus → r = .ok false) ∧ (isLocal backend = true → status ≠ doneStatus)) ∨
      ∃ text counts time elapsed, itemAt .plain τ.outcomes 0 = .done doneStatus counts time ∧
        (nextOf (.real 0) τ.clock).1.sub start = .ok elapsed ∧
        timeText backend time elapsed = .ok text ∧
        τ' = τ.spend.tick.say [.printed (p.record backend text ++ "\n")] ∧ r ≠ .ok false ∧
        (r = .ok true ↔ (p.verify = true → Confirms τ.tree p.name file counts))) := by
  rw [itemAt_zero, judge]
  by_cases ho : ∃ status counts time, (nextOf .plain τ.outcomes).1 = .done status counts time
  · obtain ⟨status, counts, time, ho⟩ := ho
    rw [ho, Job.perform_bind_ok (Job.perform_nextOutcome_done ho)]
    dsimp only
    have hclock : τ.spend.clock = τ.clock := rfl
    rw [Job.perform_bind_ok (Job.perform_tick _), hclock]
    cases hsub : (nextOf (.real 0) τ.clock).1.sub start with
    | error fault =>
      exact ⟨_, _, Job.perform_bind_error rfl, .inl ⟨rfl, by simp, by simp⟩⟩
    | ok elapsed =>
      rw [Job.perform_bind_ok (Job.perform_lift _ _ _)]
      by_cases hs : status = doneStatus
      · subst hs
        rw [if_neg (not_not.2 rfl)]
        cases ht : timeText backend time elapsed with
        | error fault =>
          refine ⟨_, _, Job.perform_bind_error rfl, .inl ⟨rfl, by simp, ?_⟩⟩
          intro status counts' time' h _
          obtain ⟨rfl, _⟩ := Outcome.done.inj h
          refine ⟨absurd rfl, fun hlocal => ?_⟩
          rw [timeText_of_isLocal hlocal] at ht
          cases ht
        | ok text =>
          obtain ⟨r, hr, hfalse, htrue⟩ := perform_record p backend file τ.spend.tick text counts
          refine ⟨r, _, ?_, .inr ⟨text, counts, time, elapsed, rfl, rfl, ht, rfl, hfalse, htrue⟩⟩
          rw [Job.perform_bind_ok (Job.perform_lift _ _ _)]
          exact hr
      · rw [if_pos hs]
        refine ⟨_, _, rfl, .inl ⟨rfl, by simp, ?_⟩⟩
        intro status' counts' time' h _
        obtain ⟨rfl, _⟩ := Outcome.done.inj h
        exact ⟨fun _ => rfl, fun _ => hs⟩
  · push Not at ho
    obtain ⟨fault, hf⟩ := Job.perform_nextOutcome_error ho
    refine ⟨_, _, Job.perform_bind_error hf, .inl ⟨rfl, by simp, ?_⟩⟩
    intro status counts time h
    exact absurd h (ho status counts time)

theorem runFile_cases (p : Plan) (file : String) (σ : Session) :
    ∃ r σ', (runFile p file).perform σ = (r, σ') ∧ FileRun p file σ σ' r := by
  rw [runFile_eq, Job.perform_bind_ok (Job.perform_say _ _)]
  cases hb : p.backend with
  | blank =>
    refine ⟨_, _, Job.perform_bind_error rfl, .refused _ (Session.events_say _ _) ?_⟩
    rw [Plan.machine, hb]
    exact isLocal_blankText
  | value backend =>
    obtain rfl : p.machine = backend := by
      rw [Plan.machine, hb]
      rfl
    rw [Job.perform_bind_ok (Job.perform_given _ _ _)]
    rcases access_cases p.machine (σ.say [.call .program]) with ⟨fault, ha, hl⟩ | ⟨account, ha⟩
    · exact ⟨_, _, Job.perform_bind_error ha, .refused _ (Session.events_say _ _) hl⟩
    · rw [Job.perform_bind_ok ha, Job.perform_bind_ok (Job.perform_say _ _),
        Job.perform_bind_ok (Job.perform_tick _), Job.perform_bind_ok (Job.perform_say _ _)]
      have hbegun : (((σ.say [.call .program]).say
          ((if isRemote p.machine then [.setAccount account.1 account.2] else []).map .call)).say
          [.call (.load file p.name)]).tick.say [.call (.execute (p.execution p.machine))]
            = σ.tick.say ((Trial.calls ⟨p, file, account, ""⟩).map .call) := by
        simp [Session.tick_say, Trial.calls, isRemote, Plan.execution, timeLimit]
      rw [hbegun]
      obtain ⟨r, σ', hrun, ⟨hevents, hr, hstop⟩ |
          ⟨text, counts, time, elapsed, ho, hsub, htime, rfl, hfalse, htrue⟩⟩ :=
        judge_cases p p.machine file (nextOf (.real 0) σ.clock).1
          (σ.tick.say ((Trial.calls ⟨p, file, account, ""⟩).map .call))
      · rw [Session.events_say] at hevents
        refine ⟨r, σ', hrun, .unrecorded r account hevents hr ?_ ?_⟩
        · intro hσ status counts time ho hs
          exact (hstop status counts time ho hσ.sub).1 hs
        · intro hσ hlocal counts time ho
          exact (hstop doneStatus counts time ho hσ.sub).2 hlocal rfl
      · refine ⟨r, _, hrun, .recorded r account text ?_ hfalse ?_⟩
        · exact Stretch.one (x := ⟨p, file, account, text⟩) ho hsub htime
        · have ho : itemAt .plain σ.outcomes 0 = .done doneStatus counts time := ho
          rw [ho]
          exact htrue

/-! ## one qubit number -/

/-- the plan has the settings as they are read -/
structure Settings.Planned (s : Settings) (p : Plan) : Prop where
  name : s.name = .value p.name
  backend : s.backend = p.backend
  depth : s.depth.toWhole = .ok p.depth
  /-- a seed that is not set stays as it is -/
  seed : if s.seed.truthy then ∃ n, s.seed.toWhole = .ok n ∧ p.seed = .num (.whole n)
    else p.seed = s.seed
  verify : s.verify.truthy = p.verify

theorem Settings.numbers_eq_ok_iff {s : Settings} {depth : Int} {seed : Json} :
    s.numbers = .ok (depth, seed) ↔ s.depth.toWhole = .ok depth ∧
      if s.seed.truthy then ∃ n, s.seed.toWhole = .ok n ∧ seed = .num (.whole n)
      else seed = s.seed := by
  rw [Settings.numbers]
  cases s.depth.toWhole with
  | error fault => simp [bind, Except.bind]
  | ok d =>
    cases s.seed.truthy with
    | false => simp [bind, Except.bind, pure, Except.pure, eq_comm]
    | true =>
      cases s.seed.toWhole with
      | error fault => simp [bind, Except.bind, Except.map]
      | ok n => simp [bind, Except.bind, pure, Except.pure, Except.map, eq_comm]

theorem Settings.plan_eq_ok_iff {s : Settings} {qubits : Int} {p : Plan} :
    s.plan qubits = .ok p ↔ p.qubits = qubits ∧ s.Planned p := by
  constructor
  · intro h
    rw [Settings.plan] at h
    cases hnumbers : s.numbers with
    | error fault =>
      rw [hnumbers] at h
      cases h
    | ok numbers =>
      obtain ⟨hdepth, hseed⟩ := s.numbers_eq_ok_iff.1 hnumbers
      cases hname : s.name with
      | blank =>
        rw [hnumbers, hname] at h
        cases h
      | value name =>
        rw [hnumbers, hname] at h
        cases h
        exact ⟨rfl, hname, rfl, hdepth, hseed, rfl⟩
  · rintro ⟨rfl, h⟩
    rw [Settings.plan, s.numbers_eq_ok_iff.2 ⟨h.depth, h.seed⟩, h.name, h.backend, h.verify]
    rfl

/-- the listed files of a qubit number, in the order of the session -/
def Plan.listing (p : Plan) (σ : Session) : List String :=
  σ.order (σ.tree.expand (pathPattern p.name p.qubits p.depth))

theorem perform_run {s : Settings} {qubits : Int} {p : Plan} (hp : s.plan qubits = .ok p)
    (σ : Session) : (run s qubits).perform σ = (runFiles p false (p.listing σ)).perform σ := by
  have hlisted : (Job.listed (σ.tree.expand (pathPattern p.name p.qubits p.depth))).perform σ
      = (.ok (p.listing σ), σ) := rfl
  rw [run, hp, Job.perform_bind_ok (Job.perform_lift _ _ _),
    Job.perform_bind_ok (Job.perform_get σ), Job.perform_bind_ok hlisted]
  -- without files the loop ends as the test before it does
  cases p.listing σ with
  | nil => rfl
  | cons file files => rfl

end Bench

end CircuitBench
