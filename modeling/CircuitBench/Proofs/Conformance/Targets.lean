import CircuitBench.Proofs.Conformance.Paths

/-!
# The files that the suite opens

The suite takes the last four letters of a listed name for the extension, and builds the path of the
file again from what stands before the last five characters.  So a listed name has a target
(`Example.target?`), and the suite is the checks of the targets of all entries, one after the other
(`perform_runSuite_targets`).

A name with the whole extension is its own target.  Any other name with these letters at its end
has a target of another name (`target?_eq_self_iff`), which may be there or not.  Where it is not
there the suite ends with a fault (`perform_visit_missing`).
-/

namespace CircuitBench.Conformance

/-- the name has the letters of the extension at its end -/
def isLettered (file : String) : Bool := "qasm".toList.isSuffixOf file.toList

namespace Example

/-- the file that is checked for an entry -/
def target? (x : Example) : Option Example :=
  (exampleName? x.file).map fun name => ⟨x.category, name ++ ".qasm"⟩

def visit (verbose : Bool) (x : Example) : Job Unit :=
  checkFile x.path verbose (x.category == invalidCategory)

end Example

def entriesIn (σ : Session) (category : String) : List Example :=
  (σ.order (((σ.tree.at? [categoriesDir, category]).map Tree.names).getD [])).map
    (Example.mk category)

def entries (σ : Session) (cats : List (String × Tree)) : List Example :=
  (σ.order ((cats.filter (·.2.isDir)).map (·.1))).flatMap (entriesIn σ)

def targets (σ : Session) (cats : List (String × Tree)) : List Example :=
  (entries σ cats).filterMap Example.target?

/-! ## targets -/

section
variable {f name : String} {x y : Example}

/-- five characters are cut; of the four letters alone only the last one is -/
theorem exampleName?_eq_some_iff : exampleName? f = some name ↔
    (f = "qasm" ∧ name = "qas") ∨ ∃ c, f.toList = name.toList ++ c :: "qasm".toList := by
  constructor
  · intro h
    rw [exampleName?] at h
    split at h
    case isFalse => cases h
    case isTrue hletters =>
      obtain ⟨front, hf⟩ := List.isSuffixOf_iff_suffix.1 hletters
      have hname := (Option.some.inj h).symm
      rcases List.eq_nil_or_concat front with rfl | ⟨front, c, rfl⟩
      · left
        obtain rfl : f = "qasm" := String.toList_injective hf.symm
        exact ⟨rfl, hname.trans (by decide +kernel)⟩
      · right
        rw [List.concat_eq_append, List.append_assoc, List.singleton_append] at hf
        have hlen : f.toList.length = front.length + 5 := by
          rw [← hf, List.length_append]
          rfl
        rw [if_neg (by omega), hlen, Nat.add_sub_cancel, ← hf, List.take_left] at hname
        exact ⟨c, by rw [hname, String.toList_ofList, hf]⟩
  · rintro (⟨rfl, rfl⟩ | ⟨c, hf⟩)
    · decide +kernel
    · have hletters : "qasm".toList.isSuffixOf f.toList = true := by
        rw [List.isSuffixOf_iff_suffix, hf]
        exact ⟨name.toList ++ [c], by simp⟩
      have hlen : f.toList.length = name.toList.length + 5 := by
        rw [hf, List.length_append]
        rfl
      rw [exampleName?, if_pos hletters, if_neg (by omega), hlen, Nat.add_sub_cancel, hf,
        List.take_left, String.ofList_toList]

theorem isLettered_of_isExample (h : isExample f = true) : isLettered f = true := by
  obtain ⟨front, hf⟩ := List.isSuffixOf_iff_suffix.1 h
  rw [isLettered, List.isSuffixOf_iff_suffix, ← hf]
  exact ⟨front ++ ['.'], by simp⟩

theorem isExample_extension (name : String) : isExample (name ++ ".qasm") = true := by
  rw [isExample, List.isSuffixOf_iff_suffix, String.toList_append]
  exact List.suffix_append _ _

theorem exampleName?_eq_none_iff : exampleName? f = none ↔ isLettered f = false := by
  rw [exampleName?, isLettered]
  cases "qasm".toList.isSuffixOf f.toList with
  | true => simp
  | false => simp

/-- the character before the letters gives way to a point; the four letters alone lose the last -/
theorem target?_eq_some_iff : x.target? = some y ↔ y.category = x.category ∧
    ((x.file = "qasm" ∧ y.file = "qas.qasm") ∨ ∃ front c,
      x.file.toList = front ++ c :: "qasm".toList ∧ y.file.toList = front ++ ".qasm".toList) := by
  rw [Example.target?, Option.map_eq_some_iff]
  constructor
  · rintro ⟨name, hname, rfl⟩
    refine ⟨rfl, (exampleName?_eq_some_iff.1 hname).imp ?_ ?_⟩
    · rintro ⟨hf, rfl⟩
      exact ⟨hf, rfl⟩
    · rintro ⟨c, hf⟩
      exact ⟨name.toList, c, hf, String.toList_append⟩
  · obtain ⟨category, file⟩ := y
    rintro ⟨rfl, ⟨hf, rfl⟩ | ⟨front, c, hf, hfile⟩⟩
    · exact ⟨"qas", exampleName?_eq_some_iff.2 (.inl ⟨hf, rfl⟩), rfl⟩
    · refine ⟨String.ofList front, exampleName?_eq_some_iff.2 (.inr ⟨c, ?_⟩), ?_⟩
      · rw [String.toList_ofList, hf]
      · have hname : String.ofList front ++ ".qasm" = file := by
          apply String.toList_injective
          rw [String.toList_append, String.toList_ofList, hfile]
        rw [hname]

theorem target?_eq_none_iff : x.target? = none ↔ isLettered x.file = false := by
  rw [Example.target?, Option.map_eq_none_iff, exampleName?_eq_none_iff]

theorem isExample_target (h : x.target? = some y) : isExample y.file = true := by
  obtain ⟨name, _, rfl⟩ := Option.map_eq_some_iff.1 h
  exact isExample_extension name

theorem target?_eq_self_iff : x.target? = some x ↔ isExample x.file = true := by
  constructor
  · exact isExample_target
  · intro h
    obtain ⟨front, hf⟩ := List.isSuffixOf_iff_suffix.1 h
    exact target?_eq_some_iff.2 ⟨rfl, .inr ⟨front, '.', hf.symm, hf.symm⟩⟩

/-- a cut name is not longer than it was, so the file may have it -/
theorem isName_target (hf : Tree.IsName f) (h : exampleName? f = some name) :
    Tree.IsName (name ++ ".qasm") := by
  rcases exampleName?_eq_some_iff.1 h with ⟨rfl, rfl⟩ | ⟨c, hc⟩
  · decide +kernel
  · have hmem {d : Char} (hd : d ∈ name.toList) : d ∈ f.toList := by
      rw [hc]
      exact List.mem_append_left _ hd
    have hlong {s : String} (hs : s.toList.length < 5) : name ++ ".qasm" ≠ s := by
      rintro rfl
      rw [String.toList_append, List.length_append] at hs
      exact absurd hs (by simp)
    have hsize : (name ++ ".qasm").utf8ByteSize ≤ f.utf8ByteSize := by
      have hsplit : f = name ++ String.singleton c ++ "qasm" := by
        apply String.toList_injective
        simp [hc]
      have hext : ".qasm".utf8ByteSize = 5 := by decide +kernel
      have hletters : "qasm".utf8ByteSize = 4 := by decide +kernel
      have hpos := c.utf8Size_pos
      rw [hsplit, String.utf8ByteSize_append, String.utf8ByteSize_append,
        String.utf8ByteSize_append, String.utf8ByteSize_singleton, hext, hletters]
      omega
    refine ⟨hlong (by decide), hlong (by decide), hlong (by decide), ?_, ?_, hsize.trans hf.size⟩
    · rw [String.toList_append, List.mem_append, not_or]
      exact ⟨fun hd => hf.slash (hmem hd), by decide⟩
    · rw [String.toList_append, List.mem_append, not_or]
      exact ⟨fun hd => hf.null (hmem hd), by decide⟩

end

/-! ## visits -/

theorem speaks_accepts (path : String) (verbose : Bool) (precision : Int) :
    Job.Speaks (accepts path verbose precision) := by
  refine (Job.speaks_callAll _).bind fun _ => Job.speaks_get (fun _ _ => rfl) fun σ => ?_
  cases σ.rejections.lookup path with
  | none => exact (Job.speaks_callAll [_]).bind fun _ => Job.speaks_pure true
  | some r =>
    cases r with
    | broken kind message => exact Job.speaks_throw _
    | invalid message =>
      cases verbose with
      | false => exact Job.speaks_pure false
      | true => exact (Job.speaks_printText _).bind fun _ => Job.speaks_pure false

/-- what comes after the label has been printed -/
def verdict (path : String) (verbose invalid : Bool) (line : String) : Job Unit := do
  if (← accepts path verbose defaultPrecision) == invalid then throw (.wrongVerdict line)

theorem speaks_verdict (path : String) (verbose invalid : Bool) (line : String) :
    Job.Speaks (verdict path verbose invalid line) := by
  refine (speaks_accepts _ _ _).bind fun accepted => ?_
  cases accepted == invalid with
  | false => exact Job.speaks_pure ()
  | true => exact Job.speaks_throw _

theorem speaks_checkFile (path : String) (verbose invalid : Bool) :
    Job.Speaks (checkFile path verbose invalid) :=
  (Job.speaks_readText _ _).bind fun _ => (Job.speaks_printText _).bind fun _ =>
    speaks_verdict _ _ _ _

theorem speaks_visit (verbose : Bool) (x : Example) : Job.Speaks (x.visit verbose) :=
  speaks_checkFile _ _ _

section
variable {σ : Session} {cats : List (String × Tree)}

theorem Arranged.say (h : Arranged σ cats) (es : List Event) : Arranged (σ.say es) cats :=
  ⟨h.suite, h.dir, h.named, h.files, h.order⟩

theorem Arranged.entriesIn_eq (h : Arranged σ cats) {c : String} {es : List (String × Tree)}
    (hc : (c, Tree.dir es) ∈ cats) :
    entriesIn σ c = (σ.order (es.map Prod.fst)).map (Example.mk c) := by
  rw [entriesIn, h.at_category hc]
  rfl

theorem mem_entriesIn (h : Arranged σ cats) {c : String} {es : List (String × Tree)}
    (hc : (c, Tree.dir es) ∈ cats) {x : Example} :
    x ∈ entriesIn σ c ↔ x.category = c ∧ ∃ t, (x.file, t) ∈ es := by
  obtain ⟨c', f⟩ := x
  simp only [h.entriesIn_eq hc, List.mem_map, (h.order _).mem_iff, Example.mk.injEq, Prod.exists,
    exists_and_right, exists_eq_right]
  constructor
  · rintro ⟨g, hg, rfl, rfl⟩
    exact ⟨rfl, hg⟩
  · rintro ⟨rfl, hg⟩
    exact ⟨f, hg, rfl, rfl⟩

theorem mem_entries (h : Arranged σ cats) (x : Example) :
    x ∈ entries σ cats ↔ ∃ es t, (x.category, Tree.dir es) ∈ cats ∧ (x.file, t) ∈ es := by
  rw [entries, List.mem_flatMap]
  constructor
  · rintro ⟨c, hc, hx⟩
    obtain ⟨es, hes⟩ := h.exists_dir_of_mem hc
    obtain ⟨rfl, t, ht⟩ := (mem_entriesIn h hes).1 hx
    exact ⟨es, t, hes, ht⟩
  · rintro ⟨es, t, hes, ht⟩
    refine ⟨x.category, ?_, (mem_entriesIn h hes).2 ⟨rfl, t, ht⟩⟩
    rw [(h.order _).mem_iff]
    exact List.mem_map_of_mem (f := fun e : String × Tree => e.1) (List.mem_filter.2 ⟨hes, rfl⟩)

theorem nodup_entries (h : Arranged σ cats) : (entries σ cats).Nodup := by
  rw [entries, List.nodup_flatMap]
  constructor
  · intro c hc
    obtain ⟨es, hes⟩ := h.exists_dir_of_mem hc
    have hnodup : (σ.order (es.map Prod.fst)).Nodup :=
      (h.order _).nodup_iff.2 (h.files c es hes).nodup
    rw [h.entriesIn_eq hes]
    exact hnodup.map fun f g hfg => (Example.mk.inj hfg).2
  · have hnodup : (σ.order ((cats.filter (·.2.isDir)).map (·.1))).Nodup :=
      (h.order _).nodup_iff.2 (h.named.nodup.sublist (List.filter_sublist.map _))
    refine hnodup.imp_of_mem ?_
    intro c c' hc hc' hne x hx hx'
    obtain ⟨es, hes⟩ := h.exists_dir_of_mem hc
    obtain ⟨es', hes'⟩ := h.exists_dir_of_mem hc'
    exact hne (((mem_entriesIn h hes).1 hx).1.symm.trans ((mem_entriesIn h hes').1 hx').1)

theorem checkFiles_eq_visits {c : String} (hc : Tree.IsName c) (verbose : Bool)
    {files : List String} (hf : ∀ f ∈ files, Tree.IsName f) :
    checkFiles c verbose files =
      ((files.map (Example.mk c)).filterMap Example.target?).forM (Example.visit verbose) := by
  induction files with
  | nil => rfl
  | cons f files ih =>
    have ih := ih fun g hg => hf g (List.mem_cons_of_mem f hg)
    rw [checkFiles, ih, List.map_cons, List.filterMap_cons, Example.target?]
    cases hname : exampleName? f with
    | none => rfl
    | some name =>
      have hslash := (isName_target (hf f List.mem_cons_self) hname).slash
      dsimp only [Option.map_some]
      rw [examplePath_eq hc.slash hc.ne_empty hslash]
      rfl

theorem perform_checkCategories_targets (h : Arranged σ cats) (verbose : Bool) {cs : List String}
    (hcs : ∀ c ∈ cs, c ∈ σ.order ((cats.filter (·.2.isDir)).map (·.1))) :
    (checkCategories σ.tree verbose cs).perform σ =
      (((cs.flatMap (entriesIn σ)).filterMap Example.target?).forM
        (Example.visit verbose)).perform σ := by
  induction cs generalizing σ with
  | nil => rfl
  | cons c cs ih =>
    obtain ⟨es, hes⟩ := h.exists_dir_of_mem (hcs c List.mem_cons_self)
    have hlisted : (Job.listed (Tree.dir es).names).perform σ =
        (.ok (σ.order (es.map Prod.fst)), σ) := rfl
    have hnames : ∀ f ∈ σ.order (es.map Prod.fst), Tree.IsName f := by
      intro f hf
      rw [(h.order _).mem_iff] at hf
      obtain ⟨e, he, rfl⟩ := List.mem_map.1 hf
      exact (h.files c es hes).names e he
    rw [checkCategories, h.lookup_category hes, Job.perform_bind_ok (Job.perform_lift _ _ _),
      Job.perform_bind_ok hlisted, checkFiles_eq_visits (h.named.names _ hes) verbose hnames,
      ← h.entriesIn_eq hes,
      List.flatMap_cons, List.filterMap_append, Job.forM_append]
    -- the visits of one category leave the tree and the listings as they are
    obtain ⟨r, es', hvisits⟩ := (Job.speaks_forM (speaks_visit verbose)
      ((entriesIn σ c).filterMap Example.target?)).perform σ
    cases r with
    | error fault => rw [Job.perform_bind_error hvisits, Job.perform_bind_error hvisits]
    | ok =>
      rw [Job.perform_bind_ok hvisits, Job.perform_bind_ok hvisits]
      exact ih (h.say es') fun c hc => hcs c (List.mem_cons_of_mem _ hc)

def heading : Event := .printed "\nOpenQASM conformance test suite\n\n"

/-- the suite checks the targets of all entries, one after the other -/
theorem perform_runSuite_targets (h : Arranged σ cats) (verbose : Bool) :
    (runSuite verbose).perform σ =
      ((targets σ cats).forM (Example.visit verbose)).perform (σ.say [heading]) := by
  have hlisted (names : List String) :
      (Job.listed names).perform σ = (.ok (σ.order names), σ) := rfl
  have hheading : (Job.printText "\nOpenQASM conformance test suite\n\n").perform σ =
      (.ok (), σ.say [heading]) := rfl
  rw [runSuite, Job.perform_bind_ok (Job.perform_get σ)]
  dsimp only
  rw [h.categories_eq, Job.perform_bind_ok (Job.perform_lift _ _ _),
    Job.perform_bind_ok (hlisted _), Job.perform_bind_ok hheading]
  exact perform_checkCategories_targets (h.say _) verbose fun c hc => hc

/-- a target that was not listed is not there -/
theorem perform_visit_missing (h : Arranged σ cats) {x y : Example} (hx : x ∈ entries σ cats)
    (hxy : x.target? = some y) (hy : y ∉ entries σ cats) (verbose : Bool) :
    (y.visit verbose).perform σ = (.error (.path y.path .missing), σ) := by
  obtain ⟨es, t, hes, ht⟩ := (mem_entries h x).1 hx
  obtain ⟨name, hname, rfl⟩ := Option.map_eq_some_iff.1 hxy
  have hfile := isName_target ((h.files _ es hes).names _ ht) hname
  have hunlisted : es.lookup (name ++ ".qasm") = none := by
    rw [List.lookup_eq_none_iff]
    intro e he
    by_contra hne
    have heq : name ++ ".qasm" = e.1 := by simpa using hne
    exact hy ((mem_entries h _).2 ⟨es, e.2, hes, by rw [heq]; exact he⟩)
  have hread : σ.tree.read (Example.mk x.category (name ++ ".qasm")).path = .error .missing := by
    rw [Tree.read, h.lookup_path hes hfile, hunlisted]
    rfl
  rw [Example.visit, checkFile, Job.perform_bind_error (Job.perform_readText_error hread _)]

end

/-- **The suite checks the targets of what it lists, and only a name with the whole extension is its
own target.**  A name with the letters at its end is checked by way of its target, in the same
category and with the extension; this is the listed file itself exactly if the name has the whole
extension.  A suite that ends well has opened listed files only, but perhaps others than those that
led to them. -/
theorem suite_checks_targets (σ : Session) (cats : List (String × Tree)) (h : Arranged σ cats)
    (verbose : Bool) :
    (∀ x, x ∈ entries σ cats ↔
      ∃ es t, (x.category, Tree.dir es) ∈ cats ∧ (x.file, t) ∈ es) ∧
    (runSuite verbose).perform σ =
      ((targets σ cats).forM (Example.visit verbose)).perform (σ.say [heading]) ∧
    (∀ x ∈ entries σ cats,
      (x.target? = none ↔ isLettered x.file = false) ∧
      (∀ y, x.target? = some y ↔ y.category = x.category ∧
        ((x.file = "qasm" ∧ y.file = "qas.qasm") ∨ ∃ front c,
          x.file.toList = front ++ c :: "qasm".toList ∧
          y.file.toList = front ++ ".qasm".toList)) ∧
      (∀ y, x.target? = some y → isExample y.file = true) ∧
      ((∀ y, x.target? = some y → y ∈ entries σ cats ∧ y = x) ↔
        (isLettered x.file = true → isExample x.file = true))) ∧
    (∀ y ∈ targets σ cats, y ∉ entries σ cats →
      (y.visit verbose).perform σ = (.error (.path y.path .missing), σ)) ∧
    ((∃ σ', (runSuite verbose).perform σ = (.ok (), σ')) →
      ∀ y ∈ targets σ cats, y ∈ entries σ cats) := by
  have hmissing : ∀ y ∈ targets σ cats, y ∉ entries σ cats →
      (y.visit verbose).perform σ = (.error (.path y.path .missing), σ) := by
    intro y hy hunlisted
    obtain ⟨x, hx, hxy⟩ := List.mem_filterMap.1 hy
    exact perform_visit_missing h hx hxy hunlisted verbose
  refine ⟨mem_entries h, perform_runSuite_targets h verbose, ?_, hmissing, ?_⟩
  · intro x hx
    refine ⟨target?_eq_none_iff, fun y => target?_eq_some_iff, fun y => isExample_target, ?_⟩
    constructor
    · intro hself hletters
      cases hy : x.target? with
      | none => rw [target?_eq_none_iff.1 hy] at hletters; cases hletters
      | some y =>
        obtain rfl := (hself y hy).2
        exact isExample_target hy
    · intro hext y hy
      have hletters : isLettered x.file = true := by
        rw [← Bool.not_eq_false, ← target?_eq_none_iff, hy]
        exact Option.some_ne_none y
      obtain rfl : x = y := Option.some.inj ((target?_eq_self_iff.2 (hext hletters)).symm.trans hy)
      exact ⟨hx, rfl⟩
  · rintro ⟨σ', hok⟩ y hy
    by_contra hunlisted
    rw [perform_runSuite_targets h verbose] at hok
    -- every visit of a suite that ends well ends well, and this one does not
    obtain ⟨es, hvisit⟩ := Job.Speaks.perform_forM (speaks_visit verbose) hok y hy
    obtain ⟨r, fs, hspeaks⟩ := speaks_visit verbose y σ
    have hhere := hmissing y hy hunlisted
    rw [hspeaks [heading]] at hvisit
    have hzero := hspeaks []
    rw [show σ.say [] = σ from rfl, hhere, (Prod.mk.inj hvisit).1] at hzero
    cases (Prod.mk.inj hzero).1

def singleShelf (c : String) (es : List (String × Tree)) : Session :=
  { Session.initial with
    tree := .dir [(home, .dir []), (categoriesDir, .dir [(c, .dir es)])]
    order := id }

theorem arranged_singleShelf {c : String} {es : List (String × Tree)} (hc : Tree.IsName c)
    (hes : Tree.Named es) : Arranged (singleShelf c es) [(c, .dir es)] where
  suite := ⟨[], rfl⟩
  dir := rfl
  named := ⟨by simpa using hc, by simp⟩
  files := by
    intro c' es' hm
    obtain ⟨rfl, rfl⟩ : c' = c ∧ es' = es := by simpa using hm
    exact hes
  order := fun names => List.Perm.refl names

/-- a file beside another one whose name has the letters, but no point before them -/
def namesakes : List (String × Tree) :=
  [("x.qasm", .file (.text "")), ("xyqasm", .file (.text "// name: Other\n"))]

/-- the first file is checked twice, and the second one never -/
theorem suite_checks_namesake_twice :
    Arranged (singleShelf "a" namesakes) [("a", .dir namesakes)] ∧
    entries (singleShelf "a" namesakes) [("a", .dir namesakes)] =
      [⟨"a", "x.qasm"⟩, ⟨"a", "xyqasm"⟩] ∧
    (runSuite false).perform (singleShelf "a" namesakes) =
      (List.forM [⟨"a", "x.qasm"⟩, ⟨"a", "x.qasm"⟩] (Example.visit false)).perform
        ((singleShelf "a" namesakes).say [heading]) := by
  have harranged : Arranged (singleShelf "a" namesakes) [("a", .dir namesakes)] :=
    arranged_singleShelf (by decide +kernel) ⟨by decide +kernel, by decide⟩
  have htargets : targets (singleShelf "a" namesakes) [("a", .dir namesakes)] =
      [⟨"a", "x.qasm"⟩, ⟨"a", "x.qasm"⟩] := by
    decide +kernel
  refine ⟨harranged, by decide +kernel, ?_⟩
  rw [(suite_checks_targets _ _ harranged false).2.1, htargets]

def strays : List (String × Tree) := [("xqasm", .file (.text ""))]

/-- a name that only has the letters leads to a file that was not listed, and is not there -/
theorem suite_opens_unlisted_file :
    Arranged (singleShelf "a" strays) [("a", .dir strays)] ∧
    entries (singleShelf "a" strays) [("a", .dir strays)] = [⟨"a", "xqasm"⟩] ∧
    (runSuite false).perform (singleShelf "a" strays) =
      (.error (.path "test/../examples/a/.qasm" .missing),
        (singleShelf "a" strays).say [heading]) := by
  have harranged : Arranged (singleShelf "a" strays) [("a", .dir strays)] :=
    arranged_singleShelf (by decide +kernel) ⟨by decide +kernel, by decide⟩
  have htargets : targets (singleShelf "a" strays) [("a", .dir strays)] = [⟨"a", ".qasm"⟩] := by
    decide +kernel
  refine ⟨harranged, by decide +kernel, ?_⟩
  have hvisit := perform_visit_missing (x := ⟨"a", "xqasm"⟩) (y := ⟨"a", ".qasm"⟩)
    (harranged.say [heading]) (by decide +kernel) (by decide +kernel) (by decide +kernel) false
  rw [perform_runSuite_targets harranged, htargets]
  exact Job.perform_bind_error hvisit

end CircuitBench.Conformance
