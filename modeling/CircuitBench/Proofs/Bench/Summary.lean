import CircuitBench.Proofs.Bench.Files
import CircuitBench.Proofs.Bench.Tally

/-!
# The summary of a directory of numbered circuits

A name of the usual form without a depth is counted under its number of qubits
(`ofName_numbered`).  If the files of a directory have such names with different numbers
(`Numbered`), every number has a row of its own, and the rows stand in the order of the numbers,
however the files are listed (`perform_summarize`).
-/

namespace CircuitBench

/-! ## directories of numbered files -/

namespace Bench

/-- the entries are the files of the numbers, each once -/
structure Numbered (name : String) (numbers : Finset Nat) (es : List (String × Tree)) : Prop where
  nodup : (es.map Prod.fst).Nodup
  mem : ∀ file, file ∈ es.map Prod.fst ↔ ∃ n ∈ numbers, file = numbered name n ""

theorem Numbered.exists_iff {name : String} {numbers : Finset Nat} {es : List (String × Tree)}
    (h : Numbered name numbers es) (P : String → Prop) :
    (∃ e ∈ es, P e.1) ↔ ∃ n ∈ numbers, P (numbered name n "") := by
  constructor
  · rintro ⟨e, he, hP⟩
    obtain ⟨n, hn, hfile⟩ := (h.mem e.1).1 (List.mem_map_of_mem he)
    rw [hfile] at hP
    exact ⟨n, hn, hP⟩
  · rintro ⟨n, hn, hP⟩
    obtain ⟨e, he, hfile⟩ := List.mem_map.1 ((h.mem _).2 ⟨n, hn, rfl⟩)
    rw [← hfile] at hP
    exact ⟨e, he, hP⟩

theorem toList_numbered_plain (name : String) (n : Nat) :
    (numbered name n "").toList = name.toList ++ '_' :: 'n' :: (n.repr.toList ++ extension) := by
  rw [toList_numbered, String.toList_append, List.append_assoc, List.append_assoc]
  rfl

theorem numbered_injective (name : String) : Function.Injective fun n => numbered name n "" := by
  intro m n h
  have h := congrArg String.toList h
  simp only [toList_numbered_plain, List.append_cancel_left_eq, List.cons.injEq, true_and,
    List.append_cancel_right_eq] at h
  exact Nat.repr_injective (String.toList_injective h)

/-- after the number there is no mark any more -/
theorem notMem_numeral (n : Nat) : '_' ∉ 'n' :: (n.repr.toList ++ extension) := by
  intro h
  rcases List.mem_cons.1 h with h | h
  · exact absurd h (by decide)
  · rcases List.mem_append.1 h with h | h
    · have hd := isAsciiDigit_of_mem_repr h
      exact absurd hd (by decide)
    · exact absurd h (by decide)

section
variable {name : String} (hmark : '_' ∉ name.toList)
include hmark

/-- the mark stands at one place of the name only -/
theorem eq_of_mark {n : Nat} {before after : List Char}
    (h : (numbered name n "").toList = before ++ '_' :: after) :
    before = name.toList ∧ after = 'n' :: (n.repr.toList ++ extension) := by
  rw [toList_numbered_plain] at h
  obtain ⟨hbefore, _, hafter⟩ := (List.append_cons_inj_of_notMem hmark (notMem_numeral n)).1 h
  exact ⟨hbefore.symm, hafter.symm⟩

theorem numbered_once (n : Nat) (before after : List Char)
    (h : (numbered name n "").toList = before ++ (name ++ "_n").toList ++ after) : before = [] := by
  have h : (numbered name n "").toList = (before ++ name.toList) ++ '_' :: ('n' :: after) := by
    rw [h, String.toList_append]
    simp
  have hb := (eq_of_mark hmark h).1
  exact List.append_left_eq_self.1 hb

end

theorem lt_of_isNameChar {c : Char} (h : Pattern.isNameChar c = true) : c.toNat < 128 := by
  have hle {d : Char} (hd : c ≤ d) : c.toNat ≤ d.toNat := hd
  simp only [Pattern.isNameChar, Text.isAsciiLetter, Text.isAsciiDigit, Bool.or_eq_true,
    Bool.and_eq_true, decide_eq_true_eq, beq_iff_eq] at h
  rcases h with (((⟨_, h⟩ | ⟨_, h⟩) | ⟨_, h⟩) | rfl) | rfl
  · exact (hle h).trans_lt (by decide)
  · exact (hle h).trans_lt (by decide)
  · exact (hle h).trans_lt (by decide)
  · decide
  · decide

/-- the name of the benchmark, letters, digits and a dot -/
theorem isNameChar_numbered {name : String} (hname : ∀ c ∈ name.toList, Pattern.isNameChar c = true)
    {n : Nat} {c : Char} (hc : c ∈ (numbered name n "").toList) :
    Pattern.isNameChar c = true ∨ c = '.' := by
  have hall : extension.all (fun d => Pattern.isNameChar d || d == '.') = true := rfl
  rw [toList_numbered_plain, List.mem_append, List.mem_cons, List.mem_cons, List.mem_append] at hc
  rcases hc with hc | rfl | rfl | hc | hc
  · exact .inl (hname c hc)
  · exact .inl rfl
  · exact .inl rfl
  · exact .inl (isNameChar_of_isAsciiDigit (isAsciiDigit_of_mem_repr hc))
  · simpa using List.all_eq_true.1 hall c hc

theorem slash_notMem_numbered {name : String}
    (hname : ∀ c ∈ name.toList, Pattern.isNameChar c = true) (n : Nat) :
    '/' ∉ (numbered name n "").toList := by
  intro hm
  rcases isNameChar_numbered hname hm with hc | hc
  · exact absurd hc (by decide)
  · exact absurd hc (by decide)

theorem Numbered.plainNames {name : String} (hname : ∀ c ∈ name.toList, Pattern.isNameChar c = true)
    {numbers : Finset Nat} {es : List (String × Tree)} (h : Numbered name numbers es) :
    PlainNames es where
  nodup := h.nodup
  slash := by
    intro e he hm
    obtain ⟨n, _, hn⟩ := (h.mem e.1).1 (List.mem_map_of_mem he)
    rw [hn] at hm
    exact slash_notMem_numbered hname n hm
  ascii := by
    intro e he c hm
    obtain ⟨n, _, hn⟩ := (h.mem e.1).1 (List.mem_map_of_mem he)
    rw [hn] at hm
    rcases isNameChar_numbered hname hm with hc | rfl
    · exact ⟨lt_of_isNameChar hc, Pattern.ne_of_isNameChar hc rfl⟩
    · decide

end Bench

namespace Summary

open Bench

/-! ## the numbers of a name -/

theorem digitsValue_repr (n : Nat) : Decimal.digitsValue n.repr.toList = n := by
  rw [Decimal.digitsValue, Decimal.ofDigits, List.foldl_map, Nat.toList_repr]
  exact Nat.ofDigitChars_ten_toDigits

theorem numberOf_repr (n : Nat) : numberOf n.repr.toList = .ok n := by
  have hdigits : ¬ n.repr.toList.isEmpty = true := by
    rw [List.isEmpty_iff]
    exact repr_ne_nil n
  rw [numberOf, if_neg hdigits, digitsValue_repr]

theorem takeWhile_numeral (n : Nat) :
    (n.repr.toList ++ extension).takeWhile Text.isAsciiDigit = n.repr.toList := by
  exact takeWhile_digits (fun c => isAsciiDigit_of_mem_repr) (@head_extension [] (by simp))

theorem qubitDigits?_append {front : List Char} (h : '_' ∉ front) (cs : List Char) :
    qubitDigits? (front ++ '_' :: 'n' :: cs) = some (cs.takeWhile Text.isAsciiDigit) := by
  induction front with
  | nil => rfl
  | cons c front ih =>
    obtain ⟨hc, hfront⟩ := not_or.1 fun h' => h (List.mem_cons.2 h')
    rw [List.cons_append, qubitDigits?, ih hfront]
    intro cs' he
    exact absurd he.symm hc

/-- a depth has its mark in the name -/
theorem exists_mark_of_depthDigits? {cs ds : List Char} (h : depthDigits? cs = some ds) :
    ∃ before after, cs = before ++ '_' :: 'd' :: after := by
  fun_induction depthDigits? cs with
  | case1 => cases h
  | case2 cs rest hdrop =>
    refine ⟨'n' :: cs.takeWhile Text.isAsciiDigit, rest, ?_⟩
    rw [List.cons_append, ← hdrop, List.takeWhile_append_dropWhile]
  | case3 c cs _ ih =>
    obtain ⟨before, after, rfl⟩ := ih h
    exact ⟨c :: before, after, rfl⟩

theorem ofName_numbered {name : String} (hmark : '_' ∉ name.toList) (directory : String) (n : Nat) :
    Entry.ofName directory (numbered name n "").toList = .ok ⟨n, none⟩ := by
  have hqubits : qubitDigits? (numbered name n "").toList = some n.repr.toList := by
    rw [toList_numbered_plain, qubitDigits?_append hmark, takeWhile_numeral]
  have hdepth : depthDigits? (numbered name n "").toList = none := by
    cases hd : depthDigits? (numbered name n "").toList with
    | none => rfl
    | some ds =>
      obtain ⟨before, after, h⟩ := exists_mark_of_depthDigits? hd
      have hafter := (eq_of_mark hmark h).2
      exact absurd (List.cons.inj hafter).1 (by decide)
  rw [Entry.ofName, hqubits, hdepth]
  show (numberOf n.repr.toList >>= fun qubits => pure (⟨qubits, none⟩ : Entry)) = _
  rw [numberOf_repr]
  rfl

/-! ## the rows -/

def single (n : Nat) : Row := ⟨n, none, 1⟩

/-- a new number gets a row of its own -/
theorem addEntry_new {rows : List Row} {n : Nat} (h : ∀ r ∈ rows, r.qubits ≠ n) :
    addEntry rows ⟨n, none⟩ = .ok (rows ++ [single n]) := by
  have hsame : rows.filter (·.qubits = n) = [] := by
    simpa [List.filter_eq_nil_iff] using h
  rw [addEntry, hsame]
  rfl

theorem tallyFrom_numbered {name : String} (hmark : '_' ∉ name.toList) (directory : String)
    (ns : List Nat) (rows : List Row) (hns : ns.Nodup) (hnew : ∀ n ∈ ns, ∀ r ∈ rows, r.qubits ≠ n) :
    tallyFrom directory rows (ns.map fun n => (numbered name n "").toList)
      = .ok (rows ++ ns.map single) := by
  induction ns generalizing rows with
  | nil => rw [List.map_nil, List.map_nil, List.append_nil, tallyFrom_nil]
  | cons n ns ih =>
    obtain ⟨hn, hns⟩ := List.nodup_cons.1 hns
    have hnew' : ∀ m ∈ ns, ∀ r ∈ rows ++ [single n], r.qubits ≠ m := by
      intro m hm r hr
      rcases List.mem_append.1 hr with hr | hr
      · exact hnew m (List.mem_cons_of_mem n hm) r hr
      · rw [List.mem_singleton.1 hr]
        rintro rfl
        exact hn hm
    rw [List.map_cons, tallyFrom, ofName_numbered hmark]
    show (addEntry rows ⟨n, none⟩ >>= fun rows => tallyFrom directory rows _) = _
    rw [addEntry_new (hnew n List.mem_cons_self)]
    show tallyFrom directory (rows ++ [single n]) _ = _
    rw [ih _ hns hnew', List.append_assoc]
    rfl

theorem sortRows_single {ns : List Nat} (h0 : ns ≠ []) (hns : ns.Nodup) :
    sortRows (ns.map single) = .ok (ns.toFinset.sort.map single) := by
  have hsorted : ns.toFinset.sort = ns.mergeSort := by
    have hperm := List.mergeSort_perm ns (fun a b => decide (a ≤ b))
    have htrans (a b c : Nat) (hab : decide (a ≤ b) = true) (hbc : decide (b ≤ c) = true) :
        decide (a ≤ c) = true :=
      decide_eq_true ((of_decide_eq_true hab).trans (of_decide_eq_true hbc))
    have htotal (a b : Nat) : (decide (a ≤ b) || decide (b ≤ a)) = true := by
      simpa using Nat.le_total a b
    have hpairwise : (ns.mergeSort).Pairwise (· ≤ ·) :=
      (List.pairwise_mergeSort htrans htotal ns).imp of_decide_eq_true
    rw [← List.toFinset_eq_of_perm _ _ hperm]
    exact (List.toFinset_sort _ (hperm.nodup_iff.2 hns)).2 hpairwise
  obtain ⟨n, ns, rfl⟩ := List.exists_cons_of_ne_nil h0
  have hmap : ((n :: ns).mergeSort).map single
      = ((n :: ns).map single).mergeSort fun a b => decide (a.qubits ≤ b.qubits) :=
    List.map_mergeSort fun _ _ _ _ => rfl
  rw [hsorted, hmap]
  rfl

/-! ## the directory -/

theorem nameFits_numbered {name file : String} {n : Nat} (h0 : name ≠ "")
    (hname : ∀ c ∈ name.toList, Pattern.isNameChar c = true) (hfile : file = numbered name n "") :
    Tree.nameFits "*.qasm" file = true := by
  obtain ⟨c, cs, hcs⟩ := List.exists_cons_of_ne_nil fun h => h0 (String.toList_eq_nil_iff.1 h)
  have hvisible : Tree.isHidden file = false := by
    rw [Bool.eq_false_iff, Ne, Tree.isHidden_iff, hfile, toList_numbered_plain, hcs]
    rintro ⟨⟩
    exact absurd (hname '.' (by rw [hcs]; exact List.mem_cons_self)) (by decide)
  have hplain : extension.all NamePattern.isPlain = true := rfl
  have hfits := (NamePattern.fitsAll_star (List.forall_mem_nil _) (List.all_eq_true.1 hplain)
    file.toList).2
    ⟨name.toList ++ '_' :: 'n' :: n.repr.toList, by rw [hfile, toList_numbered_plain]; simp⟩
  rw [Tree.nameFits, hvisible, Bool.not_false, Bool.or_true, Bool.true_and]
  exact hfits

/-- the circuit files of a directory, in its order -/
theorem expand_circuits {name : String} (h0 : name ≠ "")
    (hname : ∀ c ∈ name.toList, Pattern.isNameChar c = true) {t : Tree} {es : List (String × Tree)}
    (hes : t.lookup name = .ok (.dir es)) (hslash : ∀ e ∈ es, '/' ∉ e.1.toList) :
    t.expand (name ++ "/*.qasm")
      = (es.filter fun e => Tree.nameFits "*.qasm" e.1).map fun e => name ++ "/" ++ e.1 := by
  have hne : name.toList ≠ [] := fun h => h0 (String.toList_eq_nil_iff.1 h)
  have hsplit : name ++ "/*.qasm" = name ++ "/" ++ "*.qasm" := by
    rw [String.append_assoc]
    rfl
  rw [hsplit]
  exact t.expand_slash (notMem_of_isNameChar hname rfl) hne (isPattern_of_isNameChar hname)
    (by decide) (by decide) hes hslash

section
variable {name : String} (h0 : name ≠ "") (hname : ∀ c ∈ name.toList, Pattern.isNameChar c = true)
  {t : Tree} {numbers : Finset Nat} {es : List (String × Tree)}
  (hes : t.lookup name = .ok (.dir es)) (hnumbered : Numbered name numbers es)
include h0 hname hes hnumbered

theorem expand_numbered :
    t.expand (name ++ "/*.qasm") = es.map fun e => name ++ "/" ++ e.1 := by
  have hfits : ∀ e ∈ es, Tree.nameFits "*.qasm" e.1 = true := by
    intro e he
    obtain ⟨n, _, hn⟩ := (hnumbered.mem e.1).1 (List.mem_map_of_mem he)
    exact nameFits_numbered h0 hname hn
  rw [expand_circuits h0 hname hes (hnumbered.plainNames hname).slash, List.filter_eq_self.2 hfits]

/-- in whatever order they are listed, the files are those of the numbers, each once -/
theorem exists_listing_numbered {listing : List String}
    (hlisting : listing.Perm (t.expand (name ++ "/*.qasm"))) :
    ∃ ns : List Nat, ns.Nodup ∧ ns.toFinset = numbers ∧
      listing = ns.map fun n => name ++ "/" ++ numbered name n "" := by
  rw [expand_numbered h0 hname hes hnumbered] at hlisting
  have hmem (file : String) :
      file ∈ listing ↔ ∃ n ∈ numbers, file = name ++ "/" ++ numbered name n "" := by
    rw [hlisting.mem_iff, List.mem_map, ← hnumbered.exists_iff fun f => file = name ++ "/" ++ f]
    simp only [eq_comm]
  obtain ⟨ns, hns⟩ : listing ∈ Set.range (List.map fun n => name ++ "/" ++ numbered name n "") := by
    rw [Set.range_list_map]
    intro file hfile
    obtain ⟨n, _, rfl⟩ := (hmem file).1 hfile
    exact ⟨n, rfl⟩
  have hinj := (slash_injective name).comp (numbered_injective name)
  have hnodup : listing.Nodup := by
    have h := hnumbered.nodup.map (slash_injective name)
    rw [List.map_map] at h
    exact hlisting.nodup_iff.2 h
  refine ⟨ns, .of_map _ (hns ▸ hnodup), ?_, hns.symm⟩
  ext n
  rw [List.mem_toFinset]
  constructor
  · intro hn
    obtain ⟨m, hm, he⟩ := (hmem _).1 (hns ▸ List.mem_map_of_mem hn)
    rwa [hinj he]
  · intro hn
    have hfile := (hmem _).2 ⟨n, hn, rfl⟩
    rw [← hns] at hfile
    obtain ⟨m, hm, he⟩ := List.mem_map.1 hfile
    rwa [← hinj he]

end

/-- however the files are listed, every number has its row, in the order of the numbers -/
theorem perform_summarize {name : String} (h0 : name ≠ "")
    (hname : ∀ c ∈ name.toList, Pattern.isNameChar c = true) (hmark : '_' ∉ name.toList)
    {numbers : Finset Nat} (hnonempty : numbers.Nonempty) {es : List (String × Tree)} {σ : Session}
    (hes : σ.tree.lookup name = .ok (.dir es)) (hnumbered : Numbered name numbers es)
    (horder : ∀ paths, (σ.order paths).Perm paths) :
    (summarize name).perform σ = (.ok (), σ.say [report name (numbers.sort.map single)]) := by
  obtain ⟨ns, hns, rfl, hlisting⟩ := exists_listing_numbered h0 hname hes hnumbered (horder _)
  have hrows : rows name (listedNames σ name) = .ok (ns.toFinset.sort.map single) := by
    have hbase (n : Nat) : Path.baseNameChars (name ++ "/" ++ numbered name n "").toList
        = (numbered name n "").toList :=
      Path.baseNameChars_slash (slash_notMem_numbered hname n)
    have hne : ns ≠ [] := by
      rintro rfl
      exact Finset.not_nonempty_empty hnonempty
    rw [listedNames, hlisting, List.map_map, rows, tally]
    simp only [Function.comp_def, hbase]
    rw [tallyFrom_numbered hmark name ns [] hns (by simp)]
    exact sortRows_single hne hns
  exact perform_summarize_ok ((Tree.pathExists_iff ..).2 ⟨_, hes⟩) hrows

end Summary

end CircuitBench
