import CircuitBench.Bench.Verify
import CircuitBench.Proofs.Session
import Mathlib

/-!
# When a reference confirms counts

The reference of a file confirms the counts of an execution if it can be read and holds every
counted outcome with an equal count (`Confirms`).  Verifying looks at the session and leaves it as
it is; it ends well exactly when the counts are confirmed (`perform_verify`).  The order of the
counts does not matter (`confirms_perm`).  Which texts are references is for `Json.parse` to say:
one with lists in more than `Json.nestingLimit` others is none.
-/

namespace CircuitBench

theorem Tree.read_eq_ok_iff (t : Tree) (path : String) (content : Content) :
    t.read path = .ok content ↔ t.lookup path = .ok (.file content) := by
  rw [Tree.read]
  rcases t.lookup path with fault | ⟨c⟩ | ⟨es⟩
  · simp [bind, Except.bind]
  · simp [bind, Except.bind, pure, Except.pure]
  · simp [bind, Except.bind, throw, throwThe, MonadExceptOf.throw]

theorem Tree.pathExists_of_read {t : Tree} {path : String} {content : Content}
    (h : t.read path = .ok content) : t.pathExists path = true := by
  rw [Tree.pathExists, (Tree.read_eq_ok_iff t path content).1 h]
  rfl

namespace Bench

/-- nothing was counted, or the reference is an object with an equal count for every outcome -/
def Holds (reference : Json) (counts : List (String × Json)) : Prop :=
  counts = [] ∨ ∃ fields, reference = .obj fields ∧
    ∀ c ∈ counts, ∃ expected, fields.lookup (.ofString c.1) = some expected ∧
      expected.equal c.2 = true

/-- the directory of the references is there, and in it a file for the circuit whose text is a JSON
value that holds the counts -/
def Confirms (t : Tree) (name file : String) (counts : List (String × Json)) : Prop :=
  t.pathExists (name ++ "/ref") = true ∧
    ∃ content text reference,
      t.read (name ++ "/ref" ++ "/" ++ Path.baseName file ++ ".ref") = .ok content ∧
        content.text? = some text ∧
        Json.parse (String.ofList text) = .ok reference ∧ Holds reference counts

theorem holds_nil (reference : Json) : Holds reference [] := .inl rfl

theorem holds_cons (reference : Json) (c : String × Json) (counts : List (String × Json)) :
    Holds reference (c :: counts) ↔
      (∃ fields expected, reference = .obj fields ∧ fields.lookup (.ofString c.1) = some expected ∧
        expected.equal c.2 = true) ∧ Holds reference counts := by
  simp only [Holds, reduceCtorEq, false_or, List.forall_mem_cons]
  constructor
  · rintro ⟨fields, rfl, ⟨expected, hl, he⟩, hcs⟩
    exact ⟨⟨fields, expected, rfl, hl, he⟩, .inr ⟨fields, rfl, hcs⟩⟩
  · rintro ⟨⟨fields, expected, rfl, hl, he⟩, rfl | ⟨fields', h, hcs⟩⟩
    · exact ⟨fields, rfl, ⟨expected, hl, he⟩, by simp⟩
    · cases h
      exact ⟨fields, rfl, ⟨expected, hl, he⟩, hcs⟩

/-- a count is looked up in an object; no other value has one -/
theorem referenceCount_eq_ok_iff (outcome : String) (reference expected : Json) :
    referenceCount outcome reference = .ok expected ↔
      ∃ fields, reference = .obj fields ∧ fields.lookup (.ofString outcome) = some expected := by
  cases reference with
  | obj fields =>
    cases hl : fields.lookup (.ofString outcome) with
    | none => simp [referenceCount, hl]
    | some v => simp [referenceCount, hl]
  | null => simp [referenceCount]
  | bool b => simp [referenceCount]
  | num n => simp [referenceCount]
  | str s => simp [referenceCount]
  | arr items => simp [referenceCount]

theorem holdsOutcome_of_referenceCount {outcome : String} {reference expected : Json}
    (h : referenceCount outcome reference = .ok expected) :
    holdsOutcome outcome reference = .ok true := by
  obtain ⟨fields, rfl, hl⟩ := (referenceCount_eq_ok_iff ..).1 h
  rw [holdsOutcome, hl]
  rfl

theorem compareCounts_eq_ok_iff (path : String) (reference : Json) (counts : List (String × Json)) :
    compareCounts path reference counts = .ok () ↔ Holds reference counts := by
  induction counts with
  | nil => simp [compareCounts, holds_nil]
  | cons c counts ih =>
    obtain ⟨outcome, count⟩ := c
    have hcount (expected : Json) := referenceCount_eq_ok_iff outcome reference expected
    rw [holds_cons, ← ih, compareCounts]
    cases hc : referenceCount outcome reference with
    | error fault =>
      -- whatever the outcome is found in, it has no count there
      apply iff_of_false
      · rcases holdsOutcome outcome reference with fault' | _ | _
        · rintro ⟨⟩
        · rintro ⟨⟩
        · rintro ⟨⟩
      · rintro ⟨⟨fields, expected, hr, hl, _⟩, _⟩
        have h := (hcount expected).2 ⟨fields, hr, hl⟩
        rw [hc] at h
        cases h
    | ok expected =>
      obtain ⟨fields, rfl, hl⟩ := (hcount expected).1 hc
      rw [holdsOutcome_of_referenceCount hc]
      cases he : expected.equal count with
      | false => simp [bind, Except.bind, throw, throwThe, MonadExceptOf.throw, he, hl]
      | true => simp [bind, Except.bind, he, hl]

/-- where the text of the reference is known, its value decides -/
theorem confirms_iff {t : Tree} {name file : String} {counts : List (String × Json)}
    {content : Content} {text : List Char} (hdir : t.pathExists (referenceDir name) = true)
    (hc : t.read (referencePath name file) = .ok content) (ht : content.text? = some text) :
    Confirms t name file counts ↔
      ∃ reference, Json.parse (String.ofList text) = .ok reference ∧ Holds reference counts := by
  constructor
  · rintro ⟨_, content', text', reference, hc', ht', hj, hh⟩
    obtain rfl : content = content' := Except.ok.inj (hc.symm.trans hc')
    obtain rfl : text = text' := Option.some.inj (ht.symm.trans ht')
    exact ⟨reference, hj, hh⟩
  · rintro ⟨reference, hj, hh⟩
    exact ⟨hdir, content, text, reference, hc, ht, hj, hh⟩

theorem confirms_perm {counts counts' : List (String × Json)} (h : counts.Perm counts') (t : Tree)
    (name file : String) : Confirms t name file counts ↔ Confirms t name file counts' := by
  have hnil : counts = [] ↔ counts' = [] := by
    rw [← List.length_eq_zero_iff, ← List.length_eq_zero_iff, h.length_eq]
  simp only [Confirms, Holds, hnil, h.mem_iff]

/-- verifying leaves the session as it is, and ends well if and only if the counts are confirmed -/
theorem perform_verify (counts : List (String × Json)) (name file : String) (σ : Session) :
    ∃ r, (verify counts name file).perform σ = (r, σ) ∧
      (r = .ok () ↔ Confirms σ.tree name file counts) := by
  rw [verify, Job.perform_bind_ok (Job.perform_pathExists _ σ)]
  cases hdir : σ.tree.pathExists (referenceDir name) with
  | false =>
    rw [referenceDir] at hdir
    exact ⟨_, Job.perform_bind_error rfl, by simp [Confirms, hdir]⟩
  | true =>
    simp only [Bool.not_true, Bool.false_eq_true, if_false]
    rw [Job.perform_bind_ok (Job.perform_pathExists _ σ)]
    obtain ⟨r, hr, hread⟩ := Job.perform_readText (referencePath name file) σ
    cases hfile : σ.tree.pathExists (referencePath name file) with
    | false =>
      refine ⟨_, Job.perform_bind_error rfl, iff_of_false (by rintro ⟨⟩) ?_⟩
      rintro ⟨_, content, _, _, hc, _⟩
      rw [referencePath, referenceDir, Tree.pathExists_of_read hc] at hfile
      cases hfile
    | true =>
      simp only [Bool.not_true, Bool.false_eq_true, if_false]
      cases r with
      | error fault =>
        refine ⟨_, Job.perform_bind_error hr, iff_of_false (by rintro ⟨⟩) ?_⟩
        rintro ⟨_, content, text, _, hc, ht, _⟩
        cases (hread text).2 ⟨content, hc, ht⟩
      | ok text =>
        obtain ⟨content, hc, ht⟩ := (hread text).1 rfl
        rw [Job.perform_bind_ok hr]
        rw [confirms_iff hdir hc ht]
        cases hj : Json.parse (String.ofList text) with
        | error fault => exact ⟨_, Job.perform_bind_error rfl, by simp⟩
        | ok reference =>
          rw [Job.perform_bind_ok (Job.perform_lift _ _ _)]
          refine ⟨compareCounts (referencePath name file) reference counts, ?_, ?_⟩
          · cases compareCounts (referencePath name file) reference counts with
            | ok => rfl
            | error fault => rfl
          · rw [compareCounts_eq_ok_iff]
            simp

end Bench

end CircuitBench
