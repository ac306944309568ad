import CircuitBench.Proofs.Bench.Trial

/-!
# What verification makes of a run

Where every execution goes well, only a reference can stop the loop over the files of a qubit
number. `FilesRun` has the two ways in which the loop can end: every selected file passed, or one
did not, and the files up to it were run and no other.  `runFiles_smooth` is the loop;
`verification_decides_run` says what follows for a run that verifies.  The text patterns have to
give an answer for every listed file: without that a run can stop at a file that is not even
selected (`unreadable_pattern_stops_run`).  What they answer is for `selects` to say, for any name
and any number; of the characters that a pattern may call by name it knows `Text.charNames`.
-/

namespace CircuitBench.Bench

/-! ## one file -/

/-- the file need not be verified, or its reference confirms the counts of the `k`-th execution -/
def Plan.Passes (p : Plan) (σ : Session) (k : Nat) (file : String) : Prop :=
  p.verify = true → Confirms σ.tree p.name file (itemAt .plain σ.outcomes k).counts

theorem Smooth.itemAt_outcomes {σ : Session} (hσ : Smooth σ) (k : Nat) :
    ∃ counts time, itemAt .plain σ.outcomes k = .done "DONE" counts time := by
  by_cases h : σ.outcomes = []
  · rw [h]
    exact ⟨[], none, rfl⟩
  · have hlen : min k (σ.outcomes.length - 1) < σ.outcomes.length := by
      have := List.length_pos_of_ne_nil h
      omega
    rw [itemAt, List.getD_eq_getElem _ _ hlen]
    exact hσ.outcomes _ (List.getElem_mem hlen)

/-- nothing but a reference can stop a file from going well -/
theorem FileRun.of_smooth {p : Plan} {file : String} {σ σ' : Session} {r : Except Fault Bool}
    (h : FileRun p file σ σ' r) (hlocal : isLocal p.machine = true) (hσ : Smooth σ) :
    (∃ x : Trial, x.plan = p ∧ x.file = file ∧ Stretch σ σ' [x]) ∧ r ≠ .ok false ∧
      (r = .ok true ↔ p.Passes σ 0 file) := by
  cases h with
  | refused fault _ hremote =>
    rw [hlocal] at hremote
    cases hremote
  | unrecorded r account _ _ _ hdone =>
    obtain ⟨counts, time, ho⟩ := hσ.itemAt_outcomes 0
    exact absurd ho (hdone hσ.clock hlocal counts time)
  | recorded r account time hstretch hr htrue =>
    exact ⟨⟨⟨p, file, account, time⟩, rfl, rfl, hstretch⟩, hr, htrue⟩

theorem Stretch.passes_iff {σ τ : Session} {xs : List Trial} (h : Stretch σ τ xs) (p : Plan)
    (k : Nat) (file : String) : p.Passes τ k file ↔ p.Passes σ (xs.length + k) file := by
  rw [Plan.Passes, h.tree, h.outcomes, Plan.Passes]

/-! ## the loop -/

/-- how a loop over selected files ends where every execution goes well -/
inductive FilesRun (p : Plan) (σ : Session) (files : List String) (xs : List Trial)
    (good : Except Fault Bool) : Except Fault Bool → Prop
  /-- all files were run, and passed -/
  | passed (hfiles : xs.map (·.file) = files)
      (hpasses : ∀ i file, files[i]? = some file → p.Passes σ i file) :
      FilesRun p σ files xs good good
  /-- a file did not pass; those up to it were run, and those before it passed -/
  | refuted (fault : Fault) (i : Nat) (file : String) (hi : files[i]? = some file)
      (hfails : ¬ p.Passes σ i file)
      (hbefore : ∀ j < i, ∀ g, files[j]? = some g → p.Passes σ j g)
      (hfiles : xs.map (·.file) = files.take (i + 1)) :
      FilesRun p σ files xs good (.error fault)

theorem FilesRun.cons {p : Plan} {σ τ : Session} {x : Trial} {files : List String} {xs : List Trial}
    {good r : Except Fault Bool} (hx : Stretch σ τ [x]) (hpass : p.Passes σ 0 x.file)
    (h : FilesRun p τ files xs good r) : FilesRun p σ (x.file :: files) (x :: xs) good r := by
  -- the execution of the first file has used one outcome
  have hshift (k : Nat) (file : String) : p.Passes τ k file ↔ p.Passes σ (k + 1) file := by
    rw [hx.passes_iff, List.length_singleton, Nat.add_comm]
  cases h with
  | passed hfiles hpasses =>
    refine .passed (by simp [hfiles]) ?_
    rintro (_ | i) file hi
    · simp only [List.getElem?_cons_zero, Option.some.injEq] at hi
      exact hi ▸ hpass
    · exact (hshift i file).1 (hpasses i file (by simpa using hi))
  | refuted fault i file hi hfails hbefore hfiles =>
    refine .refuted fault (i + 1) file (by simpa using hi) ?_ ?_ (by simp [hfiles])
    · rwa [← hshift]
    · rintro (_ | j) hj g hg
      · simp only [List.getElem?_cons_zero, Option.some.injEq] at hg
        exact hg ▸ hpass
      · exact (hshift j g).1 (hbefore j (by omega) g (by simpa using hg))

/-- what the loop ends with if every file passes: the last listed file must have been selected -/
def goodEnd (selected : String → Bool) (ran : Bool) (files : List String) : Except Fault Bool :=
  if (files.getLast?.map selected).getD ran then .ok true else .error .noCircuitFile

theorem goodEnd_cons (selected : String → Bool) (ran : Bool) (file : String) (files : List String) :
    goodEnd selected ran (file :: files) = goodEnd selected (selected file) files := by
  cases files with
  | nil => rfl
  | cons g files => rfl

theorem runFiles_smooth {p : Plan} (hlocal : isLocal p.machine = true) (selected : String → Bool)
    (files : List String)
    (hsel : ∀ f ∈ files,
      selects (stem p.name p.qubits p.depth) (Path.baseName f) = .ok (selected f))
    (ran : Bool) {σ : Session} (hσ : Smooth σ) :
    ∃ r σ' xs, (runFiles p ran files).perform σ = (r, σ') ∧ Stretch σ σ' xs ∧
      (∀ x ∈ xs, x.plan = p) ∧
      FilesRun p σ (files.filter selected) xs (goodEnd selected ran files) r := by
  induction files generalizing ran σ with
  | nil =>
    refine ⟨_, σ, [], ?_, .refl σ, by simp, .passed rfl (by simp)⟩
    cases ran <;> rfl
  | cons file files ih =>
    have ih (ran : Bool) {σ : Session} (hσ : Smooth σ) :=
      ih (fun g hg => hsel g (List.mem_cons_of_mem file hg)) ran hσ
    rw [runFiles, hsel file List.mem_cons_self, Job.perform_bind_ok (Job.perform_lift _ _ _),
      goodEnd_cons]
    cases hf : selected file with
    | false =>
      rw [List.filter_cons_of_neg (by simp [hf])]
      exact ih false hσ
    | true =>
      rw [List.filter_cons_of_pos hf]
      simp only [Bool.not_true, Bool.false_eq_true, if_false]
      obtain ⟨r, τ, hrun, hfile⟩ := runFile_cases p file σ
      obtain ⟨⟨x, rfl, rfl, hx⟩, hr, hpass⟩ := hfile.of_smooth hlocal hσ
      rcases r with fault | _ | _
      · -- the record is printed before the reference is read, so the trial belongs to the stretch
        refine ⟨_, τ, [x], Job.perform_bind_error hrun, hx, by simp, ?_⟩
        refine .refuted fault 0 x.file rfl ?_ ?_ ?_
        · intro h
          cases hpass.2 h
        · simp
        · simp
      · exact absurd rfl hr
      · obtain ⟨r, σ', xs, hrest, hxs, hplans, hends⟩ := ih true (hx.smooth hσ)
        have hends := hends.cons hx (hpass.1 rfl)
        refine ⟨r, σ', x :: xs, ?_, hx.trans hxs, by simpa using hplans, hends⟩
        rw [Job.perform_bind_ok hrun]
        exact hrest

/-! ## a run that verifies -/

/-- a run that verifies ends well exactly if the reference of every selected file confirms the
counts of its execution; otherwise it stops at the first file whose reference does not -/
theorem verification_decides_run (s : Settings) (qubits : Int) (p : Plan)
    (hp : s.plan qubits = .ok p) (hv : p.verify = true) (hlocal : isLocal p.machine = true)
    (σ : Session) (hσ : Smooth σ) (selected : String → Bool)
    (hsel : ∀ f ∈ p.listing σ,
      selects (stem p.name p.qubits p.depth) (Path.baseName f) = .ok (selected f))
    (last : String) (hlast : (p.listing σ).getLast? = some last) (hran : selected last = true)
    (files : List String) (hfiles : files = (p.listing σ).filter selected) :
    ∃ (r : Except Fault Bool) (σ' : Session) (xs : List Trial),
      (run s qubits).perform σ = (r, σ') ∧
      σ'.events = σ.events ++ xs.flatMap Trial.events ∧ (∀ x ∈ xs, x.plan = p) ∧ Went σ xs ∧
      σ'.tree = σ.tree ∧
      (r = .ok true ↔ ∀ i file, files[i]? = some file →
        Confirms σ.tree p.name file (itemAt .plain σ.outcomes i).counts) ∧
      (r = .ok true → xs.map (·.file) = files) ∧
      (r ≠ .ok true → ∃ fault i file, r = .error fault ∧ files[i]? = some file ∧
        ¬ Confirms σ.tree p.name file (itemAt .plain σ.outcomes i).counts ∧
        (∀ j < i, ∀ g, files[j]? = some g →
          Confirms σ.tree p.name g (itemAt .plain σ.outcomes j).counts) ∧
        xs.map (·.file) = files.take (i + 1)) ∧
      ∀ file counts counts', counts.Perm counts' →
        (Confirms σ.tree p.name file counts ↔ Confirms σ.tree p.name file counts') := by
  subst hfiles
  obtain ⟨r, σ', xs, hrun, hxs, hplans, hends⟩ :=
    runFiles_smooth hlocal selected (p.listing σ) hsel false hσ
  have hgood : goodEnd selected false (p.listing σ) = .ok true := by
    simp [goodEnd, hlast, hran]
  have hpass (i : Nat) (file : String) :
      p.Passes σ i file ↔ Confirms σ.tree p.name file (itemAt .plain σ.outcomes i).counts := by
    rw [Plan.Passes, forall_prop_of_true hv]
  rw [hgood] at hends
  refine ⟨r, σ', xs, (perform_run hp σ).trans hrun, hxs.events, hplans, hxs.went,
    hxs.tree, ?_⟩
  simp only [← hpass]
  refine ⟨?_, ?_, ?_, fun file counts counts' h => confirms_perm h σ.tree p.name file⟩
  · cases hends with
    | passed _ hpasses => exact iff_of_true rfl hpasses
    | refuted fault i file hi hfails _ _ =>
      refine iff_of_false nofun ?_
      intro h
      exact hfails (h i file hi)
  · rintro rfl
    cases hends with
    | passed hfiles _ => exact hfiles
  · intro hr
    cases hends with
    | passed _ _ => exact absurd rfl hr
    | refuted fault i file hi hfails hbefore hfiles =>
      exact ⟨fault, i, file, rfl, hi, hfails, hbefore, hfiles⟩

/-! ## two runs -/

def onceText : String := "\x7b\"00\": 1\x7d"

def referenced (name : String) (files : List String) : Tree :=
  .dir [(name, .dir (files.map (fun file => (file, .file (.text "")))
    ++ [("ref", .dir (files.map fun file => (file ++ ".ref", .file (.text onceText))))]))]

/-- every execution counts one outcome once, and files are listed from the last to the first -/
def counting (t : Tree) : Session :=
  { Session.initial with
    tree := t
    order := List.reverse
    outcomes := [.done "DONE" [("00", .num (.whole 1))] none] }

/-- verify the circuits without depth of a benchmark on a simulator -/
def verifying (name : String) : Settings :=
  ⟨.value name, .value "local_sim", .num (.whole 0), .null, .bool true⟩

def verifyingPlan (name : String) (qubits : Int) : Plan :=
  ⟨name, .value "local_sim", qubits, 0, .null, true⟩

theorem smooth_counting (t : Tree) : Smooth (counting t) :=
  ⟨by simp [counting], by simp [counting, Session.initial]⟩

theorem ok_of_toOption {ε α : Type} {x : Except ε α} {a : α} (h : x.toOption = some a) :
    x = .ok a := by
  cases x with
  | error e => cases h
  | ok b => rw [Option.some.inj h]

theorem confirms_counting {t : Tree} {name file : String} (k : Nat)
    (hdir : t.pathExists (referenceDir name) = true)
    (hread : (t.read (referencePath name file)).toOption.bind Content.text?
      = some onceText.toList) :
    Confirms t name file (itemAt .plain (counting t).outcomes k).counts := by
  have hparse : Json.parse (String.ofList onceText.toList)
      = .ok (.obj [(.ofString "00", .num (.whole 1))]) := by cbv
  have hcounts : (itemAt .plain (counting t).outcomes k).counts = [("00", .num (.whole 1))] := by
    simp [itemAt, counting, Outcome.counts]
  obtain ⟨content, hcontent, htext⟩ := Option.bind_eq_some_iff.1 hread
  rw [hcounts]
  refine ⟨hdir, content, _, _, ok_of_toOption hcontent, htext, hparse, .inr ⟨_, rfl, ?_⟩⟩
  intro c hc
  rw [List.mem_singleton.1 hc]
  exact ⟨_, List.lookup_cons_self, by decide +kernel⟩

/-- one circuit, and its reference confirms it -/
theorem verification_confirms_single_circuit :
    ∃ (σ' : Session) (xs : List Trial),
      (run (verifying "bv") 2).perform (counting (referenced "bv" ["bv_n2.qasm"]))
        = (.ok true, σ') ∧
      σ'.events = xs.flatMap Trial.events ∧ xs.map (·.file) = ["bv/bv_n2.qasm"] := by
  have hlisting : (verifyingPlan "bv" 2).listing (counting (referenced "bv" ["bv_n2.qasm"]))
      = ["bv/bv_n2.qasm"] := by decide +kernel
  have hsel : ∀ f ∈ ["bv/bv_n2.qasm"],
      (selects (stem "bv" 2 0) (Path.baseName f)).toOption = some true := by decide +kernel
  obtain ⟨r, σ', xs, hrun, hevents, _, _, _, hgood, hfiles, _⟩ :=
    verification_decides_run (verifying "bv") 2 (verifyingPlan "bv" 2) rfl rfl (by decide +kernel)
      (counting (referenced "bv" ["bv_n2.qasm"])) (smooth_counting _) (fun _ => true)
      (by rw [hlisting]; exact fun f hf => ok_of_toOption (hsel f hf))
      "bv/bv_n2.qasm" (by rw [hlisting]; rfl) rfl ["bv/bv_n2.qasm"] (by rw [hlisting]; rfl)
  have hr : r = .ok true := by
    rw [hgood]
    intro i file hi
    obtain rfl : file = "bv/bv_n2.qasm" := List.mem_singleton.1 (List.mem_of_getElem? hi)
    exact confirms_counting i (by decide +kernel) (by decide +kernel)
  exact ⟨σ', xs, by rw [hrun, hr], hevents, hfiles hr⟩

/-- the last listed file is selected, and all files are confirmed; but for the file before it the
second text pattern is read, and the name makes that one no pattern -/
theorem unreadable_pattern_stops_run :
    ∃ t : Tree, (verifying "a[").plan 5 = .ok (verifyingPlan "a[" 5) ∧
      isLocal (verifyingPlan "a[" 5).machine = true ∧ Smooth (counting t) ∧
      (verifyingPlan "a[" 5).listing (counting t) = ["a[/a[_n5x.qasm", "a[/a[_n5.qasm"] ∧
      selects (stem "a[" 5 0) (Path.baseName "a[/a[_n5.qasm") = .ok true ∧
      (∀ file ∈ ["a[/a[_n5x.qasm", "a[/a[_n5.qasm"], ∀ k,
        Confirms t "a[" file (itemAt .plain (counting t).outcomes k).counts) ∧
      ∃ fault, (run (verifying "a[") 5).perform (counting t) = (.error fault, counting t) := by
  have hlisting : (verifyingPlan "a[" 5).listing
      (counting (referenced "a[" ["a[_n5.qasm", "a[_n5x.qasm"]))
        = ["a[/a[_n5x.qasm", "a[/a[_n5.qasm"] := by decide +kernel
  have hdir : (referenced "a[" ["a[_n5.qasm", "a[_n5x.qasm"]).pathExists (referenceDir "a[")
      = true := by decide +kernel
  have hread : ∀ file ∈ ["a[/a[_n5x.qasm", "a[/a[_n5.qasm"],
      ((referenced "a[" ["a[_n5.qasm", "a[_n5x.qasm"]).read (referencePath "a[" file)).toOption.bind
        Content.text? = some onceText.toList := by decide +kernel
  have hfirst : (selects (stem "a[" 5 0) (Path.baseName "a[/a[_n5x.qasm")).toOption = none := by
    decide +kernel
  refine ⟨referenced "a[" ["a[_n5.qasm", "a[_n5x.qasm"], rfl, by decide +kernel, smooth_counting _,
    hlisting, ok_of_toOption (by decide +kernel), ?_, ?_⟩
  · intro file hfile k
    exact confirms_counting k hdir (hread file hfile)
  · have hp : (verifying "a[").plan 5 = .ok (verifyingPlan "a[" 5) := rfl
    rw [perform_run hp, hlisting, runFiles]
    cases hs : selects (stem "a[" 5 0) (Path.baseName "a[/a[_n5x.qasm") with
    | ok b =>
      rw [hs] at hfirst
      cases hfirst
    | error fault =>
      have hstem : selects (stem (verifyingPlan "a[" 5).name (verifyingPlan "a[" 5).qubits
          (verifyingPlan "a[" 5).depth) (Path.baseName "a[/a[_n5x.qasm") = .error fault := hs
      rw [hstem]
      exact ⟨_, Job.perform_bind_error rfl⟩

end CircuitBench.Bench
