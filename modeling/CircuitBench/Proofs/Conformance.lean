import CircuitBench.Proofs.Conformance.Targets

/-!
# The verdict of the conformance suite

The examples of a session are its files of the usual extension, category by category, in the order
of the listings (`examples`).  Checking one of them prints its label, has it parsed, and goes wrong
if the verdict does not fit its category (`perform_check`).  The suite is the checks of all
examples one after the other (`perform_runSuite`), so it ends at the first wrong verdict
(`runSuite_wrong`), and well if there is none (`runSuite_right`).
-/

namespace CircuitBench

theorem Text.exists_of_occursIn {part cs : List Char} (h : occursIn part cs = true) :
    ∃ front back, cs = front ++ part ++ back := by
  induction cs with
  | nil =>
    have hnil : part = [] := by simpa [occursIn] using h
    exact ⟨[], [], by rw [hnil]; rfl⟩
  | cons c cs ih =>
    rw [occursIn, Bool.or_eq_true] at h
    rcases h with h | h
    · obtain ⟨back, hback⟩ := List.isPrefixOf_iff_prefix.1 h
      exact ⟨[], back, hback.symm⟩
    · obtain ⟨front, back, hcs⟩ := ih h
      exact ⟨c :: front, back, by rw [hcs]; rfl⟩

namespace Conformance

namespace Example

/-- the text of the file; anything else has none -/
def text (t : Tree) (x : Example) : String :=
  match t.at? x.place with
  | some (.file (.text s)) => s
  | _ => ""

def label (t : Tree) (x : Example) : String :=
  Conformance.label x.path (header (Text.newlines (x.text t).toList))

def isRejected (σ : Session) (x : Example) : Bool := (σ.rejections.lookup x.path).isSome

/-- the files that are rejected are those of the invalid category -/
def isRight (σ : Session) (x : Example) : Bool := x.isRejected σ == (x.category == invalidCategory)

/-- what checking the file leaves behind: its label is printed before it is parsed -/
def events (σ : Session) (x : Example) : List Event :=
  .printed (x.label σ.tree ++ "\n") :: .call (.openText x.path) :: .call .parse ::
    if x.isRejected σ then [] else [.call (.print defaultPrecision)]

def check (x : Example) : Job Unit := checkFile x.path false (x.category == invalidCategory)

end Example

/-- the examples of a category in the order of the listing -/
def examplesIn (σ : Session) (category : String) : List Example :=
  ((σ.order (((σ.tree.at? [categoriesDir, category]).map Tree.names).getD [])).filter isExample).map
    (Example.mk category)

def examples (σ : Session) (cats : List (String × Tree)) : List Example :=
  (σ.order ((cats.filter (·.2.isDir)).map (·.1))).flatMap (examplesIn σ)

/-- a program is rejected only because it is not valid -/
def Judges (σ : Session) : Prop := ∀ r ∈ σ.rejections, ∃ message, r.2 = .invalid message

/-- what the session must be like: the examples are below the directory of the categories; in a
category a name with the letters of the extension at its end has the whole extension, and is a
file of text -/
structure Legible (σ : Session) (cats : List (String × Tree)) : Prop where
  suite : ∃ es, σ.tree.at? [home] = some (.dir es)
  dir : σ.tree.at? [categoriesDir] = some (.dir cats)
  named : Tree.Named cats
  files : ∀ c es, (c, Tree.dir es) ∈ cats → Tree.Named es
  texts : ∀ c es, (c, Tree.dir es) ∈ cats → ∀ e ∈ es, "qasm".toList.isSuffixOf e.1.toList = true →
    isExample e.1 = true ∧ ∃ s, e.2 = .file (.text s)
  judges : Judges σ
  order : ∀ names, (σ.order names).Perm names

theorem Legible.arranged {σ : Session} {cats : List (String × Tree)} (h : Legible σ cats) :
    Arranged σ cats :=
  ⟨h.suite, h.dir, h.named, h.files, h.order⟩

/-! ## checking -/

section
variable {σ : Session} {x : Example}

theorem Judges.say (h : Judges σ) (es : List Event) : Judges (σ.say es) := h

theorem perform_accepts (path : String) (hσ : Judges σ) :
    (accepts path false defaultPrecision).perform σ =
      (.ok (!(σ.rejections.lookup path).isSome), σ.say (.call (.openText path) :: .call .parse ::
        if (σ.rejections.lookup path).isSome then [] else [.call (.print defaultPrecision)])) := by
  rw [accepts, Job.perform_bind_ok (Job.perform_callAll _ _),
    Job.perform_bind_ok (Job.perform_get _),
    show (σ.say ([.openText path, .parse].map .call)).rejections = σ.rejections from rfl]
  cases hl : σ.rejections.lookup path with
  | none => rfl
  | some r =>
    obtain ⟨front, back, hsplit, _⟩ := List.lookup_eq_some_iff.1 hl
    obtain ⟨message, hm⟩ := hσ (path, r) (by rw [hsplit]; simp)
    rw [show r = .invalid message from hm]
    rfl

/-- the file is text, at its own place -/
def Example.Readable (σ : Session) (x : Example) : Prop :=
  σ.tree.read x.path = .ok (.text (x.text σ.tree))

theorem Arranged.readable {cats es : List (String × Tree)} {c f s : String} (h : Arranged σ cats)
    (hm : (c, Tree.dir es) ∈ cats) (hf : (f, Tree.file (.text s)) ∈ es) :
    (Example.mk c f).Readable σ := by
  rw [Example.Readable, Example.text, h.at_file hm hf]
  exact h.read_path hm hf

theorem perform_check (hσ : Judges σ) (hx : x.Readable σ) :
    x.check.perform σ =
      (if x.isRight σ then .ok () else .error (.wrongVerdict (x.label σ.tree)),
        σ.say (x.events σ)) := by
  have haccepts : (accepts x.path false defaultPrecision).perform
      (σ.say [.printed (x.label σ.tree ++ "\n")]) =
        (.ok (!x.isRejected σ), σ.say (x.events σ)) := by
    rw [perform_accepts x.path (hσ.say _), Session.say_say]
    rfl
  rw [Example.check, checkFile, Job.perform_bind_ok (Job.perform_readText_text hx _)]
  dsimp only
  rw [show Conformance.label x.path (header (Text.newlines (x.text σ.tree).toList)) =
      x.label σ.tree from rfl, Job.perform_bind_ok (Job.perform_printLine _ _),
    Job.perform_bind_ok haccepts, Example.isRight]
  cases x.isRejected σ <;> cases (x.category == invalidCategory) <;> rfl

theorem perform_checkAll {xs : List Example} (hσ : Judges σ) (hx : ∀ x ∈ xs, x.Readable σ)
    (hright : ∀ x ∈ xs, x.isRight σ = true) :
    (xs.forM Example.check).perform σ = (.ok (), σ.say (xs.flatMap (Example.events σ))) := by
  induction xs generalizing σ with
  | nil => rfl
  | cons x xs ih =>
    have hcheck := perform_check hσ (hx x List.mem_cons_self)
    rw [if_pos (hright x List.mem_cons_self)] at hcheck
    -- the check leaves the tree and the rejections as they are
    have hrest : (xs.forM Example.check).perform (σ.say (x.events σ)) = (.ok (),
        (σ.say (x.events σ)).say (xs.flatMap (Example.events σ))) :=
      ih (hσ.say _) (fun y hy => hx y (List.mem_cons_of_mem x hy))
        fun y hy => hright y (List.mem_cons_of_mem x hy)
    rw [Session.say_say] at hrest
    exact (Job.perform_bind_ok hcheck).trans hrest

theorem perform_checkAll_wrong {before after : List Example} (hσ : Judges σ)
    (hx : ∀ y ∈ before ++ x :: after, y.Readable σ) (hbefore : ∀ y ∈ before, y.isRight σ = true)
    (hwrong : x.isRight σ = false) :
    ((before ++ x :: after).forM Example.check).perform σ =
      (.error (.wrongVerdict (x.label σ.tree)),
        σ.say ((before ++ [x]).flatMap (Example.events σ))) := by
  have hfirst := perform_checkAll hσ (fun y hy => hx y (List.mem_append_left _ hy)) hbefore
  have hread : x.Readable (σ.say (before.flatMap (Example.events σ))) :=
    hx x (List.mem_append_right _ List.mem_cons_self)
  have hcheck := perform_check (hσ.say _) hread
  rw [show x.isRight (σ.say _) = false from hwrong, if_neg (by decide), Session.say_say] at hcheck
  rw [List.flatMap_append, List.flatMap_singleton, Job.forM_append, Job.perform_bind_ok hfirst]
  exact Job.perform_bind_error hcheck

theorem all_right_or_first_wrong (σ : Session) (xs : List Example) :
    (∀ x ∈ xs, x.isRight σ = true) ∨
    ∃ before x after, xs = before ++ x :: after ∧ (∀ y ∈ before, y.isRight σ = true) ∧
      x.isRight σ = false := by
  cases hfind : xs.find? (fun x => !x.isRight σ) with
  | none => exact .inl (by simpa using hfind)
  | some x =>
    obtain ⟨hwrong, before, after, hsplit, hbefore⟩ := List.find?_eq_some_iff_append.1 hfind
    exact .inr ⟨before, x, after, hsplit, by simpa using hbefore, by simpa using hwrong⟩

end

/-! ## all examples -/

section
variable {σ : Session} {cats : List (String × Tree)}

/-- the examples are the entries with the extension -/
theorem examples_eq (σ : Session) (cats : List (String × Tree)) :
    examples σ cats = (entries σ cats).filter fun x => isExample x.file := by
  rw [examples, entries, List.filter_flatMap]
  refine List.flatMap_congr fun c _ => ?_
  rw [examplesIn, entriesIn, List.filter_map]
  rfl

theorem mem_examples (h : Legible σ cats) (x : Example) :
    x ∈ examples σ cats ↔
      ∃ es t, (x.category, Tree.dir es) ∈ cats ∧ (x.file, t) ∈ es ∧ isExample x.file = true := by
  rw [examples_eq, List.mem_filter, mem_entries h.arranged]
  constructor
  · rintro ⟨⟨es, t, hes, ht⟩, he⟩
    exact ⟨es, t, hes, ht, he⟩
  · rintro ⟨es, t, hes, ht, he⟩
    exact ⟨⟨es, t, hes, ht⟩, he⟩

theorem readable_of_mem (h : Legible σ cats) {x : Example}
    (hx : x ∈ examples σ cats) : x.Readable σ := by
  obtain ⟨es, t, hes, ht, he⟩ := (mem_examples h x).1 hx
  obtain ⟨_, s, hs⟩ := h.texts _ es hes _ ht (isLettered_of_isExample he)
  obtain rfl : t = .file (.text s) := hs
  exact h.arranged.readable hes ht

theorem path_injOn (h : Legible σ cats) {x y : Example} (hx : x ∈ examples σ cats)
    (hy : y ∈ examples σ cats) (hxy : x.path = y.path) : x = y := by
  have hparts {z : Example} (hz : z ∈ examples σ cats) :
      Path.parts z.path = ["test", "..", "examples", z.category, z.file] := by
    obtain ⟨es, t, hes, ht, _⟩ := (mem_examples h z).1 hz
    have hc : Tree.IsName z.category := h.named.names _ hes
    have hf : Tree.IsName z.file := (h.files _ es hes).names _ ht
    rw [z.path_eq, parts_below, Path.parts_slash, Path.parts_of_notMem hc.slash,
      Path.parts_of_notMem hf.slash]
    rfl
  have heq := congrArg Path.parts hxy
  rw [hparts hx, hparts hy] at heq
  obtain ⟨cx, fx⟩ := x
  obtain ⟨cy, fy⟩ := y
  simpa using heq

theorem nodup_examples (h : Legible σ cats) : (examples σ cats).Nodup := by
  rw [examples_eq]
  exact (nodup_entries h.arranged).filter _

/-- here every target is a listed file -/
theorem targets_eq_examples (h : Legible σ cats) : targets σ cats = examples σ cats := by
  rw [targets, examples_eq, ← List.filterMap_eq_filter]
  refine List.filterMap_congr fun x hx => ?_
  obtain ⟨es, t, hes, ht⟩ := (mem_entries h.arranged x).1 hx
  rw [Option.guard]
  cases hletters : isLettered x.file with
  | true =>
    have he : isExample x.file = true := (h.texts _ es hes _ ht hletters).1
    rw [if_pos he]
    exact target?_eq_self_iff.2 he
  | false =>
    have he : isExample x.file ≠ true := by
      intro he
      rw [isLettered_of_isExample he] at hletters
      cases hletters
    rw [if_neg he]
    exact target?_eq_none_iff.2 hletters

theorem perform_runSuite (h : Legible σ cats) :
    (runSuite false).perform σ =
      ((examples σ cats).forM Example.check).perform (σ.say [heading]) := by
  rw [perform_runSuite_targets h.arranged, targets_eq_examples h]
  rfl

end

/-- the scan of the header finds a value in every line that announces one -/
theorem isSome_value? {part : String} (hpart : ':' ∈ part.toList) {line : List Char}
    (h : mentions part line = true) : (value? line).isSome = true := by
  obtain ⟨front, back, rfl⟩ := Text.exists_of_occursIn h
  obtain ⟨a, b, hab⟩ := List.append_of_mem hpart
  have hline : front ++ part.toList ++ back = front ++ a ++ ':' :: (b ++ back) := by
    simp [hab]
  obtain ⟨x, xs, hx⟩ := List.exists_cons_of_ne_nil (Text.splitOn_ne_nil ':' (front ++ a))
  obtain ⟨y, ys, hy⟩ := List.exists_cons_of_ne_nil (Text.splitOn_ne_nil ':' (b ++ back))
  rw [value?, hline, Text.splitOn_append, hx, hy]
  cases xs with
  | nil => rfl
  | cons x' xs => rfl

section
variable {σ : Session} {cats : List (String × Tree)} (h : Legible σ cats)
include h

theorem runSuite_right (hright : ∀ x ∈ examples σ cats, x.isRight σ = true) :
    (runSuite false).perform σ =
      (.ok (), σ.say (heading :: (examples σ cats).flatMap (Example.events σ))) := by
  have hchecks := perform_checkAll (h.judges.say [heading]) (fun x => readable_of_mem h) hright
  rw [Session.say_say] at hchecks
  exact (perform_runSuite h).trans hchecks

theorem runSuite_wrong {before after : List Example} {x : Example}
    (hsplit : examples σ cats = before ++ x :: after) (hbefore : ∀ y ∈ before, y.isRight σ = true)
    (hwrong : x.isRight σ = false) :
    (runSuite false).perform σ = (.error (.wrongVerdict (x.label σ.tree)),
      σ.say (heading :: (before ++ [x]).flatMap (Example.events σ))) := by
  have hread : ∀ y ∈ before ++ x :: after, y.Readable σ := by
    intro y hy
    rw [← hsplit] at hy
    exact readable_of_mem h hy
  have hchecks := perform_checkAll_wrong (h.judges.say [heading]) hread hbefore hwrong
  rw [Session.say_say, ← hsplit] at hchecks
  exact (perform_runSuite h).trans hchecks

theorem runSuite_ok_iff : (∃ σ', (runSuite false).perform σ = (.ok (), σ')) ↔
    ∀ x ∈ examples σ cats, x.isRight σ = true := by
  constructor
  · rintro ⟨σ', hok⟩
    rcases all_right_or_first_wrong σ (examples σ cats) with
      hright | ⟨before, x, after, hsplit, hbefore, hwrong⟩
    · exact hright
    · rw [runSuite_wrong h hsplit hbefore hwrong] at hok
      cases hok
  · intro hright
    exact ⟨_, runSuite_right h hright⟩

end

/-- **The suite decides whether every example has its verdict.**  It checks the files with the
extension, each at its own path; it ends well exactly if those of the invalid category are rejected
and all others are not; and otherwise it ends at the first example for which this is wrong, with
the label that was printed for it. -/
theorem suite_decides_verdicts (σ : Session) (cats : List (String × Tree)) (h : Legible σ cats) :
    (∀ x, x ∈ examples σ cats ↔
      ∃ es t, (x.category, Tree.dir es) ∈ cats ∧ (x.file, t) ∈ es ∧ isExample x.file = true) ∧
    ((examples σ cats).map Example.path).Nodup ∧
    (∀ x ∈ examples σ cats, σ.tree.read x.path = .ok (.text (x.text σ.tree))) ∧
    ((∃ σ', (runSuite false).perform σ = (.ok (), σ')) ↔
      ∀ x ∈ examples σ cats, x.isRight σ = true) ∧
    ((∀ x ∈ examples σ cats, x.isRight σ = true) →
      (runSuite false).perform σ =
        (.ok (), σ.say (heading :: (examples σ cats).flatMap (Example.events σ)))) ∧
    (∀ before x after, examples σ cats = before ++ x :: after →
      (∀ y ∈ before, y.isRight σ = true) → x.isRight σ = false →
      (runSuite false).perform σ = (.error (.wrongVerdict (x.label σ.tree)),
        σ.say (heading :: (before ++ [x]).flatMap (Example.events σ)))) ∧
    ∀ line, mentions "name:" line = true ∨ mentions "section:" line = true →
      (value? line).isSome = true := by
  refine ⟨mem_examples h, ?_, fun x => readable_of_mem h, runSuite_ok_iff h, runSuite_right h,
    fun before x after => runSuite_wrong h, ?_⟩
  · exact (nodup_examples h).map_on fun x hx y hy => path_injOn h hx hy
  · rintro line (hl | hl)
    · exact isSome_value? (by decide) hl
    · exact isSome_value? (by decide) hl

/-- a valid program with a header, and another file beside it -/
def genericFiles : List (String × Tree) :=
  [("adder.qasm", .file (.text "// name: Adder\nOPENQASM 2.0;\n")),
    ("notes.txt", .file (.raw [0xFF]))]

def invalidFiles : List (String × Tree) := [("empty.qasm", .file (.text ""))]

def twoCategories : List (String × Tree) :=
  [("generic", .dir genericFiles), ("index.md", .file (.text "")), ("invalid", .dir invalidFiles)]

/-- nothing is rejected, so the second example is wrong -/
def shelf : Session :=
  { Session.initial with
    tree := .dir [("test", .dir []), ("examples", .dir twoCategories)]
    order := id }

theorem eq_of_mem_twoCategories {c : String} {es : List (String × Tree)}
    (h : (c, Tree.dir es) ∈ twoCategories) : es = genericFiles ∨ es = invalidFiles := by
  simp only [twoCategories, List.mem_cons, Prod.mk.injEq, Tree.dir.injEq, reduceCtorEq, and_false,
    false_or, List.not_mem_nil, or_false] at h
  exact h.imp And.right And.right

theorem legible_shelf : Legible shelf twoCategories where
  suite := ⟨[], rfl⟩
  dir := rfl
  named := ⟨by decide +kernel, by decide⟩
  files := by
    intro c es hm
    rcases eq_of_mem_twoCategories hm with rfl | rfl
    · exact ⟨by decide +kernel, by decide⟩
    · exact ⟨by decide +kernel, by decide⟩
  texts := by
    intro c es hm e he hq
    rcases eq_of_mem_twoCategories hm with rfl | rfl
    · simp only [genericFiles, List.mem_cons, List.not_mem_nil, or_false] at he
      rcases he with rfl | rfl
      · exact ⟨by decide +kernel, _, rfl⟩
      · exact absurd hq (by decide +kernel)
    · simp only [invalidFiles, List.mem_cons, List.not_mem_nil, or_false] at he
      obtain rfl := he
      exact ⟨by decide +kernel, _, rfl⟩
  judges := by simp [Judges, shelf, Session.initial]
  order := fun names => List.Perm.refl names

/-- the label of the wrong example is by its file name, as it has no header -/
theorem suite_stops_at_empty_program :
    Legible shelf twoCategories ∧
    (runSuite false).perform shelf = (.error (.wrongVerdict " - empty (invalid)"),
      shelf.say [heading, .printed " - Adder (generic)\n",
        .call (.openText "test/../examples/generic/adder.qasm"), .call .parse, .call (.print 15),
        .printed " - empty (invalid)\n",
        .call (.openText "test/../examples/invalid/empty.qasm"), .call .parse,
        .call (.print 15)]) := by
  refine ⟨legible_shelf, ?_⟩
  have hwrong := (suite_decides_verdicts shelf twoCategories legible_shelf).2.2.2.2.2.1
    [⟨"generic", "adder.qasm"⟩] ⟨"invalid", "empty.qasm"⟩ [] (by decide +kernel) (by decide +kernel)
    (by decide +kernel)
  exact hwrong

end Conformance

end CircuitBench
