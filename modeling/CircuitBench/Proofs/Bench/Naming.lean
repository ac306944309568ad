import CircuitBench.Proofs.Bench.Summary

/-!
# Names that the summary and the runs read alike

A run for a number of qubits looks for names that begin with the name of the benchmark; the summary
looks for the first `_n` of a file name, wherever it stands, and for a depth.  The two agree on
names of the usual form if the name of the benchmark has no mark of its own, or one with the right
number, if every depth is written, and if depths are not mixed with files that have none
(`Listable`).  `summary_agrees_iff` says that they agree in no other case; the name of a benchmark
with a mark of its own is one (`marked_name_is_not_summarized`).
-/

namespace CircuitBench.Summary

open Bench

/-! ## labels -/

/-- what tells the circuit files of a benchmark apart: the number of qubits, and ASCII text of one
line that does not begin with a digit -/
structure Label where
  qubits : Nat
  rest : String
  free : ∀ c ∈ rest.toList.head?, Text.isAsciiDigit c = false
  ascii : ∀ c ∈ rest.toList, c.toNat < 128 ∧ c ≠ '\n'

namespace Label

def file (name : String) (l : Label) : String := numbered name l.qubits l.rest

/-- the digits that the summary takes for the number of qubits -/
def digits (name : String) (l : Label) : List Char :=
  (qubitDigits? name.toList).getD l.qubits.repr.toList

def depthDigits? (name : String) (l : Label) : Option (List Char) :=
  Summary.depthDigits? (l.file name).toList

/-- the numbers that the summary reads from the name -/
def read (name : String) (l : Label) : Entry :=
  ⟨Decimal.digitsValue (l.digits name), (l.depthDigits? name).map Decimal.digitsValue⟩

/-- the numbers that it should read -/
def entry (name : String) (l : Label) : Entry := { l.read name with qubits := l.qubits }

end Label

/-! ## the numbers of a name -/

/-- a mark inside the front comes first, and its digits do not run on over the next mark -/
theorem qubitDigits?_mark (front cs : List Char) :
    qubitDigits? (front ++ '_' :: 'n' :: cs)
      = some ((qubitDigits? front).getD (cs.takeWhile Text.isAsciiDigit)) := by
  fun_induction qubitDigits? front with
  | case1 front =>
    have hstop : ('_' :: 'n' :: cs).takeWhile Text.isAsciiDigit = [] := rfl
    show some ((front ++ '_' :: 'n' :: cs).takeWhile Text.isAsciiDigit) = _
    rw [List.takeWhile_append, hstop, List.append_nil, Option.getD_some]
    split_ifs with hlen
    · rw [(List.takeWhile_prefix _).eq_of_length hlen]
    · rfl
  | case2 c front hmark ih =>
    rw [List.cons_append, qubitDigits?, ih]
    intro cs' hc hfront
    cases front with
    | nil => exact absurd (List.cons.inj hfront).1 (by decide)
    | cons d front =>
      obtain ⟨rfl, -⟩ := List.cons.inj hfront
      exact hmark front hc rfl
  | case3 => rfl

theorem numberOf_eq_ok_iff (ds : List Char) (n : Nat) :
    numberOf ds = .ok n ↔ ds ≠ [] ∧ n = Decimal.digitsValue ds := by
  rw [numberOf]
  split_ifs with h
  · have hnil : ds = [] := List.isEmpty_iff.1 h
    simp [hnil]
  · have hne : ds ≠ [] := fun hnil => h (List.isEmpty_iff.2 hnil)
    simp [hne, eq_comm]

theorem ofName_eq_ok_iff (directory : String) (name : List Char) (e : Entry) :
    Entry.ofName directory name = .ok e ↔
      ∃ ds, qubitDigits? name = some ds ∧ ds ≠ [] ∧ depthDigits? name ≠ some [] ∧
        e = ⟨Decimal.digitsValue ds, (depthDigits? name).map Decimal.digitsValue⟩ := by
  rw [Entry.ofName]
  cases hq : qubitDigits? name with
  | none => simp
  | some ds =>
    cases hn : numberOf ds with
    | error fault =>
      have hnil : ¬ ds ≠ [] := by
        intro hne
        rw [(numberOf_eq_ok_iff ds _).2 ⟨hne, rfl⟩] at hn
        cases hn
      simp [hn, hnil, bind, Except.bind]
    | ok n =>
      obtain ⟨hne, rfl⟩ := (numberOf_eq_ok_iff ds n).1 hn
      cases hd : depthDigits? name with
      | none => simp [hn, hne, bind, Except.bind, pure, Except.pure, eq_comm]
      | some ds' =>
        cases hn' : numberOf ds' with
        | error fault =>
          have hnil : ds' = [] := by
            by_contra hne'
            rw [(numberOf_eq_ok_iff ds' _).2 ⟨hne', rfl⟩] at hn'
            cases hn'
          simp [hn, hn', ← hnil, bind, Except.bind]
        | ok d =>
          obtain ⟨hne', rfl⟩ := (numberOf_eq_ok_iff ds' d).1 hn'
          simp [hn, hn', hne, hne', bind, Except.bind, pure, Except.pure, eq_comm]

namespace Label

theorem toList_file (name : String) (l : Label) : (l.file name).toList
    = name.toList ++ '_' :: 'n' :: (l.qubits.repr.toList ++ (l.rest.toList ++ extension)) := by
  rw [file, toList_numbered, String.toList_append, List.append_assoc, List.append_assoc]
  rfl

theorem plain_of_all {cs : List Char}
    (h : cs.all (fun c => decide (c.toNat < 128 ∧ c ≠ '\n')) = true) :
    ∀ c ∈ cs, c.toNat < 128 ∧ c ≠ '\n' :=
  fun c hc => of_decide_eq_true (List.all_eq_true.1 h c hc)

theorem ascii_file {name : String} (hname : ∀ c ∈ name.toList, Pattern.isNameChar c = true)
    (l : Label) : ∀ c ∈ (l.file name).toList, c.toNat < 128 ∧ c ≠ '\n' := by
  have hplain {c : Char} (hc : Pattern.isNameChar c = true) : c.toNat < 128 ∧ c ≠ '\n' :=
    ⟨lt_of_isNameChar hc, Pattern.ne_of_isNameChar hc rfl⟩
  intro c hc
  rw [toList_file, List.mem_append, List.mem_cons, List.mem_cons, List.mem_append,
    List.mem_append] at hc
  rcases hc with hc | rfl | rfl | hc | hc | hc
  · exact hplain (hname c hc)
  · decide
  · decide
  · exact hplain (isNameChar_of_isAsciiDigit (isAsciiDigit_of_mem_repr hc))
  · exact l.ascii c hc
  · exact plain_of_all rfl c hc

theorem qubitDigits?_file (name : String) (l : Label) :
    qubitDigits? (l.file name).toList = some (l.digits name) := by
  have hnumeral : (l.qubits.repr.toList ++ (l.rest.toList ++ extension)).takeWhile Text.isAsciiDigit
      = l.qubits.repr.toList :=
    takeWhile_digits (fun c => isAsciiDigit_of_mem_repr) (head_extension l.free)
  rw [toList_file, qubitDigits?_mark, hnumeral, digits]

theorem ofName_file_iff (directory name : String) (l : Label) (e : Entry) :
    Entry.ofName directory (l.file name).toList = .ok e ↔
      (l.digits name ≠ [] ∧ l.depthDigits? name ≠ some []) ∧ l.read name = e := by
  rw [ofName_eq_ok_iff, qubitDigits?_file]
  simp only [Option.some.injEq, exists_eq_left', and_assoc, eq_comm (a := e)]
  rfl

/-- a run for the number of qubits selects the file -/
theorem selects_file {name : String} (hname : ∀ c ∈ name.toList, Pattern.isNameChar c = true)
    (l : Label) : selects (stem name l.qubits 0) (l.file name) = .ok true := by
  obtain ⟨⟨middle, hmiddle⟩, hfree⟩ : belongs (stem name l.qubits 0) (l.file name) :=
    belongs_numbered le_rfl l.free
  obtain ⟨b, hb, hiff⟩ := selects_iff (isNameChar_stem hname l.qubits 0)
    (stem_last_digit l.qubits 0) (l.ascii_file hname) ⟨_, hmiddle⟩
  rw [hb, hiff.2 hfree]

end Label

/-! ## when the two agree -/

/-- the number of qubits, every depth and the mixture of files with and without a depth are as the
summary needs them; the order in which the files are listed matters for the mixture only -/
structure Listable (name : String) (ls : List Label) : Prop where
  some : ls ≠ []
  mark : ∀ ds, qubitDigits? name.toList = .some ds →
    ds ≠ [] ∧ ∀ l ∈ ls, Decimal.digitsValue ds = l.qubits
  depth : ∀ l ∈ ls, l.depthDigits? name ≠ .some []
  steady : Steady (ls.map (Label.entry name))
  led : Led (ls.map (Label.entry name))

section
variable {name : String} {ls : List Label}

theorem Listable.reads (h : Listable name ls) (directory : String) :
    Reads directory (ls.map fun l => (l.file name).toList) (ls.map (Label.entry name)) := by
  rw [Reads, List.forall₂_map_left_iff, List.forall₂_map_right_iff, List.forall₂_same]
  intro l hl
  have hdigits : l.digits name ≠ [] ∧ Decimal.digitsValue (l.digits name) = l.qubits := by
    rw [Label.digits]
    cases hq : qubitDigits? name.toList with
    | none => exact ⟨repr_ne_nil l.qubits, digitsValue_repr l.qubits⟩
    | some ds => exact ⟨(h.mark ds hq).1, (h.mark ds hq).2 l hl⟩
  rw [Label.ofName_file_iff, Label.entry, ← hdigits.2]
  exact ⟨⟨hdigits.1, h.depth l hl⟩, rfl⟩

/-- if every number of qubits is read as often as it is meant, it is read from every name that is
meant to have it -/
theorem digitsValue_digits
    (hcount : ∀ q, ls.countP (fun l => (l.read name).qubits = q) = ls.countP (·.qubits = q))
    {l : Label} (hl : l ∈ ls) : Decimal.digitsValue (l.digits name) = l.qubits := by
  have hpos : 0 < ls.countP (fun l' => (l'.read name).qubits = l.qubits) := by
    rw [hcount]
    exact List.countP_pos_iff.2 ⟨l, hl, decide_eq_true rfl⟩
  obtain ⟨l', -, hl'⟩ := List.countP_pos_iff.1 hpos
  have hl' : Decimal.digitsValue (l'.digits name) = l.qubits := of_decide_eq_true hl'
  rw [Label.digits] at hl' ⊢
  cases hq : qubitDigits? name.toList with
  | none => exact digitsValue_repr l.qubits
  | some ds =>
    -- the digits are those of the benchmark, so they are the same for all names
    rw [hq] at hl'
    exact hl'

theorem listable_of_rows {directory : String} {rs : List Row}
    (hrs : rows directory (ls.map fun l => (l.file name).toList) = .ok rs)
    (hcount : ∀ q, filesIn rs q = ls.countP (·.qubits = q)) : Listable name ls := by
  obtain ⟨es, hreads⟩ := exists_reads_of_rows hrs
  have hall := hreads
  rw [Reads, List.forall₂_map_left_iff] at hall
  simp only [Label.ofName_file_iff] at hall
  rw [List.forall₂_and_left, ← List.forall₂_map_left_iff, List.forall₂_eq_eq_eq] at hall
  obtain ⟨hwritten, rfl⟩ := hall
  have hread : ∀ l ∈ ls, Decimal.digitsValue (l.digits name) = l.qubits := by
    intro l hl
    refine digitsValue_digits ?_ hl
    intro q
    rw [← hcount, filesIn_rows hreads hrs, List.countP_map]
    rfl
  have hentries : ls.map (Label.entry name) = ls.map (Label.read name) := by
    apply List.map_congr_left
    intro l hl
    rw [Label.entry, ← hread l hl]
    rfl
  obtain ⟨hne, hsteady, hled⟩ := (rows_eq_ok_iff hreads).1 ⟨rs, hrs⟩
  refine ⟨by simpa using hne, ?_, fun l hl => (hwritten l hl).2, ?_, ?_⟩
  · intro ds hds
    have hdigits (l : Label) : l.digits name = ds := by
      rw [Label.digits, hds, Option.getD_some]
    obtain ⟨l, hl⟩ := List.exists_mem_of_ne_nil ls (by simpa using hne)
    refine ⟨hdigits l ▸ (hwritten l hl).1, ?_⟩
    intro l hl
    rw [← hread l hl, hdigits]
  · rwa [hentries]
  · rwa [hentries]

theorem exists_rows_iff (directory : String) :
    (∃ rs, rows directory (ls.map fun l => (l.file name).toList) = .ok rs ∧
      ∀ q, filesIn rs q = ls.countP (·.qubits = q)) ↔ Listable name ls := by
  constructor
  · rintro ⟨rs, hrs, hcount⟩
    exact listable_of_rows hrs hcount
  · intro h
    have hreads := h.reads directory
    obtain ⟨rs, hrs⟩ := (rows_eq_ok_iff hreads).2 ⟨by simpa using h.some, h.steady, h.led⟩
    refine ⟨rs, hrs, ?_⟩
    intro q
    rw [filesIn_rows hreads hrs, List.countP_map]
    rfl

end

/-! ## the directory -/

/-- the listed circuit files of a benchmark are those of the labels -/
def Lists (σ : Session) (name : String) (ls : List Label) : Prop :=
  σ.order (σ.tree.expand (name ++ "/*.qasm")) = ls.map fun l => name ++ "/" ++ l.file name

section
variable {name : String} (h0 : name ≠ "") (hname : ∀ c ∈ name.toList, Pattern.isNameChar c = true)
  {σ : Session} {es : List (String × Tree)} (hes : σ.tree.lookup name = .ok (.dir es))
  (hslash : ∀ e ∈ es, '/' ∉ e.1.toList) (horder : ∀ paths, (σ.order paths).Perm paths)
include h0 hname hes hslash horder

theorem exists_lists (hform : ∀ e ∈ es, Tree.nameFits "*.qasm" e.1 = true →
    ∃ l : Label, e.1 = l.file name) : ∃ ls, Lists σ name ls := by
  obtain ⟨ls, hls⟩ : σ.order (σ.tree.expand (name ++ "/*.qasm"))
      ∈ Set.range (List.map fun l : Label => name ++ "/" ++ l.file name) := by
    rw [Set.range_list_map]
    intro path hpath
    rw [(horder _).mem_iff, expand_circuits h0 hname hes hslash] at hpath
    obtain ⟨e, he, rfl⟩ := List.mem_map.1 hpath
    obtain ⟨he, hfits⟩ := List.mem_filter.1 he
    obtain ⟨l, hl⟩ := hform e he hfits
    exact ⟨l, by rw [hl]⟩
  exact ⟨ls, hls.symm⟩

theorem Lists.perm {ls : List Label} (hls : Lists σ name ls) :
    (ls.map (Label.file name)).Perm ((es.map Prod.fst).filter (Tree.nameFits "*.qasm")) := by
  have hperm := horder (σ.tree.expand (name ++ "/*.qasm"))
  rw [hls, expand_circuits h0 hname hes hslash] at hperm
  rw [List.filter_map, ← List.map_perm_map_iff (slash_injective name), List.map_map, List.map_map]
  exact hperm

theorem Lists.mem_expand {ls : List Label} (hls : Lists σ name ls) {l : Label} (hl : l ∈ ls) :
    name ++ "/" ++ l.file name ∈ σ.tree.expand (pathPattern name l.qubits 0) := by
  have hfile : l.file name ∈ (es.map Prod.fst).filter (Tree.nameFits "*.qasm") :=
    (hls.perm h0 hname hes hslash horder).mem_iff.1 (List.mem_map_of_mem hl)
  obtain ⟨e, he, hel⟩ := List.mem_map.1 (List.mem_filter.1 hfile).1
  have hbelongs : belongs (stem name l.qubits 0) (l.file name) := belongs_numbered le_rfl l.free
  rw [expand_pathPattern h0 hname l.qubits 0 hes hslash, ← hel]
  refine List.mem_map_of_mem (f := fun e : String × Tree => name ++ "/" ++ e.1) ?_
  rw [List.mem_filter, nameFits_stem hname, hel]
  exact ⟨he, hbelongs.1⟩

end

/-! ## agreement -/

/-- **The summary and the runs agree** on a directory of files of the usual form exactly if the
labels are listable: every file is one that a run for its number of qubits executes, and the summary
ends well and counts it under that number. -/
theorem summary_agrees_iff (name : String) (h0 : name ≠ "")
    (hname : ∀ c ∈ name.toList, Pattern.isNameChar c = true) (σ : Session)
    (es : List (String × Tree)) (hes : σ.tree.lookup name = .ok (.dir es))
    (hslash : ∀ e ∈ es, '/' ∉ e.1.toList)
    (hform : ∀ e ∈ es, Tree.nameFits "*.qasm" e.1 = true → ∃ l : Label, e.1 = l.file name)
    (horder : ∀ paths, (σ.order paths).Perm paths) :
    (∃ ls, Lists σ name ls) ∧ ∀ ls, Lists σ name ls →
      (ls.map (Label.file name)).Perm ((es.map Prod.fst).filter (Tree.nameFits "*.qasm")) ∧
      (∀ l ∈ ls, name ++ "/" ++ l.file name ∈ σ.tree.expand (pathPattern name l.qubits 0) ∧
        selects (stem name l.qubits 0) (l.file name) = .ok true) ∧
      ((∃ rs, rows name (listedNames σ name) = .ok rs ∧
          (summarize name).perform σ = (.ok (), σ.say [report name rs]) ∧
          ∀ q, filesIn rs q = ls.countP (·.qubits = q)) ↔ Listable name ls) := by
  refine ⟨exists_lists h0 hname hes hslash horder hform, ?_⟩
  intro ls hls
  have hperm := hls.perm h0 hname hes hslash horder
  refine ⟨hperm, ?_, ?_⟩
  · intro l hl
    exact ⟨hls.mem_expand h0 hname hes hslash horder hl, l.selects_file hname⟩
  have hnames : listedNames σ name = ls.map fun l => (l.file name).toList := by
    rw [listedNames, hls, List.map_map]
    apply List.map_congr_left
    intro l hl
    have hfile := (List.mem_filter.1 (hperm.mem_iff.1 (List.mem_map_of_mem hl))).1
    obtain ⟨e, he, hel⟩ := List.mem_map.1 hfile
    exact Path.baseNameChars_slash (hel ▸ hslash e he)
  have hexists : σ.tree.pathExists name = true := (Tree.pathExists_iff ..).2 ⟨_, hes⟩
  rw [← exists_rows_iff name, ← hnames]
  constructor
  · rintro ⟨rs, hrs, _, hcount⟩
    exact ⟨rs, hrs, hcount⟩
  · rintro ⟨rs, hrs, hcount⟩
    exact ⟨rs, hrs, perform_summarize_ok hexists hrs, hcount⟩

/-! ## two benchmarks with a mark in their names -/

/-- a directory of empty files, listed as it holds them -/
def stocked (name : String) (files : List String) : Session :=
  { Session.initial with
    tree := .dir [(name, .dir (files.map fun file => (file, .file (.text ""))))]
    order := id }

/-- two circuits of three qubits; the name of their benchmark has that number too -/
def threes : List Label :=
  [⟨3, "_d2", by simp [Text.isAsciiDigit], Label.plain_of_all rfl⟩,
    ⟨3, "_d10-b", by simp [Text.isAsciiDigit], Label.plain_of_all rfl⟩]

/-- the files of these circuits, and one that is none -/
def threesFiles : List String := ["w_n3_n3_d2.qasm", "notes.txt", "w_n3_n3_d10-b.qasm"]

theorem summary_agrees_on_threes :
    ∃ rs, (summarize "w_n3").perform (stocked "w_n3" threesFiles)
      = (.ok (), (stocked "w_n3" threesFiles).say [report "w_n3" rs]) ∧ filesIn rs 3 = 2 := by
  have hname : "w_n3".toList.all Pattern.isNameChar = true := rfl
  have hes : (stocked "w_n3" threesFiles).tree.lookup "w_n3"
      = .ok (.dir (threesFiles.map fun file => (file, .file (.text "")))) := by
    rw [Tree.lookup, Tree.locate]
    rfl
  have hform : ∀ file ∈ threesFiles, Tree.nameFits "*.qasm" file = true →
      ∃ l ∈ threes, file = l.file "w_n3" := by decide +kernel
  have hlists : Lists (stocked "w_n3" threesFiles) "w_n3" threes := by
    show (stocked "w_n3" threesFiles).tree.expand ("w_n3" ++ "/*.qasm") = _
    decide +kernel
  have hlistable : Listable "w_n3" threes := by
    have hdepth : ∀ e ∈ threes.map (Label.entry "w_n3"), e.depth ≠ none := by decide +kernel
    refine ⟨by simp [threes], ?_, by decide +kernel, Uniform.steady (.inl hdepth),
      Uniform.led (.inl hdepth)⟩
    intro ds hds
    obtain rfl : ['3'] = ds := Option.some.inj hds
    decide +kernel
  have hagrees := (summary_agrees_iff "w_n3" (by decide) (List.all_eq_true.1 hname)
    (stocked "w_n3" threesFiles) _ hes (by decide +kernel) (by
      intro e he hfits
      obtain ⟨file, hfile, rfl⟩ := List.mem_map.1 he
      obtain ⟨l, _, hl⟩ := hform file hfile hfits
      exact ⟨l, hl⟩) (fun paths => .refl paths)).2 threes hlists
  obtain ⟨rs, _, hprint, hcount⟩ := hagrees.2.2.2 hlistable
  exact ⟨rs, hprint, hcount 3⟩

/-- the file of five qubits without anything after the number -/
def five : Label := ⟨5, "", by simp, by simp⟩

/-- the first mark is inside the name of the benchmark, and no number follows it -/
theorem marked_name_is_not_summarized :
    (stocked "my_net" [five.file "my_net"]).tree.lookup "my_net"
        = .ok (.dir [(five.file "my_net", .file (.text ""))]) ∧
      selects (stem "my_net" five.qubits 0) (five.file "my_net") = .ok true ∧
      ∃ fault, (summarize "my_net").perform (stocked "my_net" [five.file "my_net"])
        = (.error fault, stocked "my_net" [five.file "my_net"]) ∧
        fault.words = "invalid literal for int() with base 10: ''" := by
  have hname : "my_net".toList.all Pattern.isNameChar = true := rfl
  have hes : (stocked "my_net" [five.file "my_net"]).tree.lookup "my_net"
      = .ok (.dir [(five.file "my_net", .file (.text ""))]) := by
    rw [Tree.lookup, Tree.locate]
    rfl
  have hnames : listedNames (stocked "my_net" [five.file "my_net"]) "my_net"
      = ["my_net_n5.qasm".toList] := by decide +kernel
  have hrows : rows "my_net" (listedNames (stocked "my_net" [five.file "my_net"]) "my_net")
      = .error (.whole (.written (.malformed ""))) := by
    rw [hnames]
    rfl
  have hexists := (Tree.pathExists_iff ..).2 ⟨_, hes⟩
  exact ⟨hes, five.selects_file (List.all_eq_true.1 hname), _,
    perform_summarize_error hexists hrows, by decide +kernel⟩

end CircuitBench.Summary
