import CircuitBench.Proofs.Conformance

/-!
# What a header shows

A header has a line with a name and a line with a section, and no other comment.  Of a value only
the part before its first colon is shown (`shownPart`), so a section that is a link is not shown
whole.  And the scan ends at the section: if that line comes first then there is no name, and the
file is called by its file name.

* `header_commented`   what the scan finds, in either order of the lines;
* `title_eq_iff`       when both values are shown as they were written.
-/

namespace CircuitBench

namespace Text

theorem exists_splitOn_eq (sep : Char) (cs : List Char) :
    ∃ fields, splitOn sep cs = cs.takeWhile (· ≠ sep) :: fields := by
  induction cs with
  | nil => exact ⟨[], rfl⟩
  | cons c cs ih =>
    obtain ⟨fields, ih⟩ := ih
    by_cases hc : c = sep
    · exact ⟨splitOn sep cs, by simp [splitOn, hc]⟩
    · exact ⟨fields, by simp [splitOn, hc, ih]⟩

theorem trim_cons {p : Char → Bool} {c : Char} (h : p c = true) (cs : List Char) :
    trim p (c :: cs) = trim p cs := by
  unfold trim
  rw [List.dropWhile_cons_of_pos h]

theorem length_trim_le (p : Char → Bool) (cs : List Char) : (trim p cs).length ≤ cs.length := by
  have hfront := (List.dropWhile_suffix p (l := cs)).length_le
  have hback := (List.dropWhile_suffix p (l := (cs.dropWhile p).reverse)).length_le
  rw [List.length_reverse] at hback
  unfold trim
  rw [List.length_reverse]
  omega

theorem trim_ne_nil {p : Char → Bool} {c : Char} (h : p c = false) (cs : List Char) :
    trim p (c :: cs) ≠ [] := by
  intro hnil
  have hall : ∀ d ∈ (c :: cs).reverse, p d = true := by
    unfold trim at hnil
    rw [List.dropWhile_cons_of_neg (by rw [h]; decide), List.reverse_eq_nil_iff,
      List.dropWhile_eq_nil_iff] at hnil
    exact hnil
  rw [hall c (by simp)] at h
  cases h

theorem not_of_trim_eq {p : Char → Bool} {c : Char} {cs : List Char}
    (h : trim p (c :: cs) = c :: cs) : p c = false := by
  cases hc : p c with
  | false => rfl
  | true =>
    have hlen := length_trim_le p cs
    rw [← trim_cons hc, h, List.length_cons] at hlen
    omega

/-- a text without the separator does not go across it -/
theorem isPrefixOf_append {sep : Char} {part : List Char} (h : sep ∉ part) (a b : List Char) :
    part.isPrefixOf (a ++ sep :: b) = part.isPrefixOf a := by
  induction part generalizing a with
  | nil => rfl
  | cons c part ih =>
    obtain ⟨hc, hpart⟩ := not_or.1 fun h' => h (List.mem_cons.2 h')
    cases a with
    | nil =>
      show (c == sep && part.isPrefixOf b) = false
      rw [beq_false_of_ne (Ne.symm hc), Bool.false_and]
    | cons d a =>
      show (c == d && part.isPrefixOf (a ++ sep :: b)) = (c == d && part.isPrefixOf a)
      rw [ih hpart]

theorem occursIn_append {sep : Char} {part : List Char} (h : sep ∉ part) (hpart : part ≠ [])
    (a b : List Char) : occursIn part (a ++ sep :: b) = (occursIn part a || occursIn part b) := by
  have hempty : part.isEmpty = false := by simpa using hpart
  have hnot : part.isPrefixOf [] = false := by
    obtain ⟨c, cs, rfl⟩ := List.exists_cons_of_ne_nil hpart
    rfl
  induction a with
  | nil =>
    have hsep := isPrefixOf_append h [] b
    rw [List.nil_append] at hsep
    show (part.isPrefixOf (sep :: b) || occursIn part b) = (part.isEmpty || occursIn part b)
    rw [hsep, hnot, hempty]
  | cons c a ih =>
    show (part.isPrefixOf (c :: a ++ sep :: b) || occursIn part (a ++ sep :: b)) =
      (part.isPrefixOf (c :: a) || occursIn part a || occursIn part b)
    rw [isPrefixOf_append h, ih, Bool.or_assoc]

end Text

namespace Conformance

def shownPart (v : List Char) : List Char := Text.trim Text.isBlank (v.takeWhile (· ≠ ':'))

/-- a comment that gives a value for a key -/
def keyLine (key : String) (v : List Char) : List Char := ("// " ++ key ++ ":").toList ++ ' ' :: v

structure IsValue (v : List Char) : Prop where
  ne_nil : v ≠ []
  trimmed : Text.trim Text.isBlank v = v
  name : mentions "name:" v = false
  part : mentions "section:" v = false

/-- the comments of the text are a line with the name `v` and a line with the section `w` -/
def Commented (nameFirst : Bool) (text v w : List Char) : Prop :=
  ∃ before between after : List (List Char),
    (∀ line ∈ before ++ between ++ after, mentions "//" line = false) ∧
    Text.splitOn '\n' text =
      if nameFirst then before ++ keyLine "name" v :: (between ++ keyLine "section" w :: after)
      else before ++ keyLine "section" w :: (between ++ keyLine "name" v :: after)

/-- what the file is called in the report -/
def title (nameFirst : Bool) (path : String) (v w : List Char) : String :=
  if nameFirst = false ∨ shownPart v = [] then Path.stem (Path.baseName path)
  else if shownPart w = [] then String.ofList (shownPart v)
  else String.ofList (shownPart v) ++ ", section: " ++ String.ofList (shownPart w)

/-! ## values -/

section
variable {v w : List Char}

theorem value?_keyLine {key : String} (hkey : ':' ∉ ("// " ++ key).toList) (v : List Char) :
    value? (keyLine key v) = some (shownPart v) := by
  have hline : keyLine key v = ("// " ++ key).toList ++ ':' :: ' ' :: v := by
    simp [keyLine]
  obtain ⟨fields, hfields⟩ := Text.exists_splitOn_eq ':' (' ' :: v)
  unfold value?
  rw [hline, Text.splitOn_append, Text.splitOn_of_notMem hkey, hfields,
    List.takeWhile_cons_of_pos (by decide)]
  show some (Text.trim Text.isBlank (' ' :: v.takeWhile (· ≠ ':'))) = _
  rw [Text.trim_cons (by decide)]
  rfl

theorem length_shownPart_le (v : List Char) : (shownPart v).length ≤ v.length :=
  (Text.length_trim_le _ _).trans (List.takeWhile_prefix _).length_le

theorem length_shownPart_lt (h : ':' ∈ v) : (shownPart v).length < v.length := by
  refine lt_of_le_of_lt (Text.length_trim_le _ _) ?_
  obtain ⟨front, back, rfl⟩ := List.append_of_mem h
  have hcut : (front ++ ':' :: back).takeWhile (· ≠ ':') <+: front := by
    induction front with
    | nil => simp
    | cons c front ih =>
      rw [List.cons_append, List.takeWhile_cons]
      split
      · exact List.prefix_cons_iff.2 (.inr ⟨_, rfl, ih (by simp)⟩)
      · exact List.nil_prefix
  have hlen := hcut.length_le
  rw [List.length_append, List.length_cons]
  omega

theorem shownPart_eq (hv : IsValue v) (h : ':' ∉ v) : shownPart v = v := by
  unfold shownPart
  rw [List.takeWhile_eq_self_iff.2 (by
    intro c hc
    have hne : c ≠ ':' := fun heq => h (heq ▸ hc)
    simpa using hne), hv.trimmed]

/-- nothing is shown of a value that begins with a colon -/
theorem shownPart_eq_nil_iff (hv : IsValue v) : shownPart v = [] ↔ v.head? = some ':' := by
  obtain ⟨c, cs, rfl⟩ := List.exists_cons_of_ne_nil hv.ne_nil
  have hblank := Text.not_of_trim_eq hv.trimmed
  by_cases hc : c = ':'
  · simp [shownPart, hc]
  · unfold shownPart
    rw [List.takeWhile_cons_of_pos (by simpa using hc)]
    simp [Text.trim_ne_nil hblank, hc]

end

/-! ## the scan -/

section
variable {v w : List Char} {name : Option (List Char)}

theorem headerFrom_append {lines : List (List Char)}
    (h : ∀ line ∈ lines, mentions "//" line = false) (rest : List (List Char)) :
    headerFrom name (lines ++ rest) = headerFrom name rest := by
  induction lines with
  | nil => rfl
  | cons line lines ih =>
    rw [List.cons_append, headerFrom, h line List.mem_cons_self, if_neg (by decide)]
    exact ih fun l hl => h l (List.mem_cons_of_mem line hl)

theorem mentions_keyLine {part : String} (hpart : ' ' ∉ part.toList) (hne : part.toList ≠ [])
    (key : String) (v : List Char) :
    mentions part (keyLine key v) =
      (mentions part ("// " ++ key ++ ":").toList || mentions part v) :=
  Text.occursIn_append hpart hne _ v

theorem headerFrom_nameLine (hv : IsValue v) (rest : List (List Char)) :
    headerFrom name (keyLine "name" v :: rest) = headerFrom (some (shownPart v)) rest := by
  have hcomment : mentions "//" (keyLine "name" v) = true := by
    rw [mentions_keyLine (by decide) (by decide)]
    rfl
  have hname : mentions "name:" (keyLine "name" v) = true := by
    rw [mentions_keyLine (by decide) (by decide)]
    rfl
  have hpart : mentions "section:" (keyLine "name" v) = false := by
    rw [mentions_keyLine (by decide) (by decide), hv.part]
    rfl
  have hvalue : value? (keyLine "name" v) = some (shownPart v) := value?_keyLine (by decide) v
  rw [headerFrom, hcomment, hname, hpart, hvalue]
  rfl

/-- the scan does not go on after a section -/
theorem headerFrom_sectionLine (hw : IsValue w) (rest : List (List Char)) :
    headerFrom name (keyLine "section" w :: rest) = ⟨name, some (shownPart w)⟩ := by
  have hcomment : mentions "//" (keyLine "section" w) = true := by
    rw [mentions_keyLine (by decide) (by decide)]
    rfl
  have hname : mentions "name:" (keyLine "section" w) = false := by
    rw [mentions_keyLine (by decide) (by decide), hw.name]
    rfl
  have hpart : mentions "section:" (keyLine "section" w) = true := by
    rw [mentions_keyLine (by decide) (by decide)]
    rfl
  have hvalue : value? (keyLine "section" w) = some (shownPart w) := value?_keyLine (by decide) w
  rw [headerFrom, hcomment, hname, hpart, hvalue]
  rfl

theorem header_commented {nameFirst : Bool} {text : List Char} (hv : IsValue v) (hw : IsValue w)
    (h : Commented nameFirst text v w) :
    header text = ⟨if nameFirst then some (shownPart v) else none, some (shownPart w)⟩ := by
  obtain ⟨before, between, after, hplain, hlines⟩ := h
  have hbefore : ∀ line ∈ before, mentions "//" line = false := fun line hl =>
    hplain line (List.mem_append_left _ (List.mem_append_left _ hl))
  have hbetween : ∀ line ∈ between, mentions "//" line = false := fun line hl =>
    hplain line (List.mem_append_left _ (List.mem_append_right _ hl))
  unfold header
  cases nameFirst with
  | true =>
    rw [hlines, if_pos rfl, headerFrom_append hbefore, headerFrom_nameLine hv,
      headerFrom_append hbetween, headerFrom_sectionLine hw]
    rfl
  | false =>
    rw [hlines, if_neg (by decide), headerFrom_append hbefore, headerFrom_sectionLine hw]
    rfl

end

/-! ## the report -/

section
variable {nameFirst : Bool} {path : String} {text v w : List Char}

theorem said_some {cs : List Char} (h : cs ≠ []) : said (some cs) = some (String.ofList cs) := by
  obtain ⟨c, cs, rfl⟩ := List.exists_cons_of_ne_nil h
  rfl

theorem label_commented (hv : IsValue v) (hw : IsValue w) (h : Commented nameFirst text v w) :
    label path (header text) =
      " - " ++ title nameFirst path v w ++ " (" ++ Path.baseName (Path.parent path) ++ ")" := by
  rw [header_commented hv hw h]
  unfold label title
  cases nameFirst with
  | false => rfl
  | true =>
    by_cases hname : shownPart v = []
    · rw [hname]
      rfl
    · by_cases hpart : shownPart w = []
      · rw [if_pos rfl, said_some hname, hpart]
        simp [hname, said]
      · rw [if_pos rfl, said_some hname, said_some hpart]
        simp [hname, hpart]

/-- both values are shown whole if the name comes first and there is no colon in them; otherwise
only a file name could make up for it -/
theorem title_eq_iff (hv : IsValue v) (hw : IsValue w) :
    title nameFirst path v w = String.ofList v ++ ", section: " ++ String.ofList w ↔
      (nameFirst = true ∧ ':' ∉ v ∧ ':' ∉ w) ∨
      ((nameFirst = false ∨ v.head? = some ':') ∧
        Path.stem (Path.baseName path) = String.ofList v ++ ", section: " ++ String.ofList w) := by
  have hlv := length_shownPart_le v
  have hlw := length_shownPart_le w
  unfold title
  by_cases hstem : nameFirst = false ∨ shownPart v = []
  · rw [if_pos hstem, ← shownPart_eq_nil_iff hv]
    constructor
    · intro heq
      exact .inr ⟨hstem, heq⟩
    · rintro (⟨hfirst, hcolon, _⟩ | ⟨_, heq⟩)
      · rcases hstem with hfalse | hnil
        · rw [hfirst] at hfalse
          cases hfalse
        · rw [shownPart_eq hv hcolon] at hnil
          exact absurd hnil hv.ne_nil
      · exact heq
  · rw [if_neg hstem, ← shownPart_eq_nil_iff hv]
    obtain ⟨hfirst, hname⟩ := not_or.1 hstem
    -- a title that is the whole text is as long as it, so nothing was cut
    have hcut (hlen : (shownPart v).length + (shownPart w).length = v.length + w.length) :
        ':' ∉ v ∧ ':' ∉ w := by
      constructor
      · intro hmem
        have hlt := length_shownPart_lt hmem
        omega
      · intro hmem
        have hlt := length_shownPart_lt hmem
        omega
    constructor
    · intro heq
      refine .inl ⟨by simpa using hfirst, hcut ?_⟩
      have hlen := congrArg (fun s => s.toList.length) heq
      by_cases hpart : shownPart w = []
      · simp [hpart] at hlen
        omega
      · simp [hpart] at hlen
        omega
    · rintro (⟨_, hcv, hcw⟩ | ⟨hbad, _⟩)
      · rw [shownPart_eq hv hcv, shownPart_eq hw hcw, if_neg hw.ne_nil]
      · exact absurd hbad hstem

theorem perform_checkFile {σ : Session}
    (hread : (Job.readText path (Text.Utf8.decodeBlocks blockSize)).perform σ = (.ok text, σ))
    (verbose invalid : Bool) :
    ∃ r es, (checkFile path verbose invalid).perform σ =
      (r, σ.say (.printed (label path (header text) ++ "\n") :: es)) := by
  have hspeaks := speaks_verdict path verbose invalid (label path (header text))
  obtain ⟨r, es, hverdict⟩ := hspeaks.perform (σ.say [.printed (label path (header text) ++ "\n")])
  rw [Session.say_say] at hverdict
  refine ⟨r, es, ?_⟩
  rw [checkFile, Job.perform_bind_ok hread]
  exact (Job.perform_bind_ok (Job.perform_printLine _ _)).trans hverdict

end

/-- **A header is shown up to the colons in its values, if the name comes first.**  The report of a
file begins with its title.  The title has both values whole exactly if the name comes before the
section and neither value has a colon; otherwise it can be the same text only because the file
is called so. -/
theorem header_shown_up_to_colons (σ : Session) (path : String) (verbose invalid : Bool)
    (nameFirst : Bool) (text v w : List Char)
    (hread : (Job.readText path (Text.Utf8.decodeBlocks blockSize)).perform σ = (.ok text, σ))
    (hv : IsValue v) (hw : IsValue w) (h : Commented nameFirst text v w) :
    (∃ r es, (checkFile path verbose invalid).perform σ =
      (r, σ.say (.printed (" - " ++ title nameFirst path v w ++
        " (" ++ Path.baseName (Path.parent path) ++ ")\n") :: es))) ∧
    (title nameFirst path v w = String.ofList v ++ ", section: " ++ String.ofList w ↔
      (nameFirst = true ∧ ':' ∉ v ∧ ':' ∉ w) ∨
      ((nameFirst = false ∨ v.head? = some ':') ∧
        Path.stem (Path.baseName path) =
          String.ofList v ++ ", section: " ++ String.ofList w)) := by
  obtain ⟨r, es, hcheck⟩ := perform_checkFile hread verbose invalid
  refine ⟨⟨r, es, ?_⟩, title_eq_iff hv hw⟩
  have hline : label path (header text) ++ "\n" = " - " ++ title nameFirst path v w ++
      " (" ++ Path.baseName (Path.parent path) ++ ")\n" := by
    apply String.toList_injective
    simp [label_commented hv hw h]
  rw [hcheck, hline]

def loneFile (text : String) : Session := singleShelf "a" [("x.qasm", .file (.text text))]

theorem readable_loneFile (text : String) :
    (loneFile text).tree.read (Example.mk "a" "x.qasm").path = .ok (.text text) := by
  have harranged : Arranged (loneFile text) [("a", .dir [("x.qasm", .file (.text text))])] :=
    arranged_singleShelf (by decide +kernel)
      ⟨by simpa using (by decide +kernel : Tree.IsName "x.qasm"), by simp⟩
  exact harranged.read_path List.mem_cons_self List.mem_cons_self

def bellText : String :=
  "OPENQASM 2.0;\n// name: Bell pair\nqreg q[2];\n// section: 4.1 // or 4.2\ncx q[0],q[1];\n"

/-- slashes in a value do no harm -/
theorem bell_header_shown :
    IsValue "Bell pair".toList ∧ IsValue "4.1 // or 4.2".toList ∧
    Commented true (Text.newlines bellText.toList) "Bell pair".toList "4.1 // or 4.2".toList ∧
    ∃ r es, (Example.mk "a" "x.qasm").check.perform (loneFile bellText) =
      (r, (loneFile bellText).say
        (.printed " - Bell pair, section: 4.1 // or 4.2 (a)\n" :: es)) := by
  have hv : IsValue "Bell pair".toList := by constructor <;> decide +kernel
  have hw : IsValue "4.1 // or 4.2".toList := by constructor <;> decide +kernel
  have hlines : Commented true (Text.newlines bellText.toList) "Bell pair".toList
      "4.1 // or 4.2".toList :=
    ⟨["OPENQASM 2.0;".toList], ["qreg q[2];".toList], ["cx q[0],q[1];".toList, []],
      by decide +kernel, by decide +kernel⟩
  obtain ⟨⟨r, es, hcheck⟩, htitle⟩ := header_shown_up_to_colons (loneFile bellText)
    (Example.mk "a" "x.qasm").path false ("a" == invalidCategory) true _ _ _
    (Job.perform_readText_text (readable_loneFile bellText) _) hv hw hlines
  have hline : " - " ++ (String.ofList "Bell pair".toList ++ ", section: " ++
      String.ofList "4.1 // or 4.2".toList) ++ " (" ++
        Path.baseName (Path.parent (Example.mk "a" "x.qasm").path) ++ ")\n" =
          " - Bell pair, section: 4.1 // or 4.2 (a)\n" := by
    decide +kernel
  refine ⟨hv, hw, hlines, r, es, ?_⟩
  rw [Example.check, hcheck, htitle.2 (.inl ⟨rfl, by decide, by decide⟩), hline]

def linkText : String := "// name: N\n// section: http://x\n"

/-- of a link only its scheme is shown -/
theorem link_is_not_shown_whole :
    IsValue "N".toList ∧ IsValue "http://x".toList ∧
    Commented true (Text.newlines linkText.toList) "N".toList "http://x".toList ∧
    (Example.mk "a" "x.qasm").check.perform (loneFile linkText) =
      (.ok (), (loneFile linkText).say [.printed " - N, section: http (a)\n",
        .call (.openText "test/../examples/a/x.qasm"), .call .parse, .call (.print 15)]) := by
  refine ⟨by constructor <;> decide +kernel, by constructor <;> decide +kernel,
    ⟨[], [], [[]], by decide +kernel, by decide +kernel⟩, ?_⟩
  exact perform_check (by simp [Judges, loneFile, singleShelf, Session.initial])
    (readable_loneFile linkText)

end Conformance

end CircuitBench
