import CircuitBench.Bench.Select
import CircuitBench.Proofs.Pattern.Verbatim
import CircuitBench.Proofs.Tree.Listing

/-!
# Which names a benchmark selects

The names of the files of a benchmark begin with a stem: the name of the benchmark, the number of
qubits and perhaps the depth.  The path pattern lets those names through that begin with the stem
and end with the extension (`expand_pathPattern`).  Of these the two text patterns select the ones
in which the stem stands somewhere with no digit after it (`selects_iff`): a stem ends with a digit,
so it cannot end inside the extension, and what follows it is the extension or longer
(`after_stem`).
-/

namespace CircuitBench.Bench

open Pattern

/-! ## numerals -/

theorem isAsciiDigit_eq (c : Char) : Text.isAsciiDigit c = c.isDigit := by
  rw [Bool.eq_iff_iff, Text.isAsciiDigit, Char.isDigit, Bool.and_eq_true, Bool.and_eq_true]
  simp only [decide_eq_true_eq]
  exact Iff.rfl

theorem isAsciiDigit_of_mem_repr {n : Nat} {c : Char} (h : c ∈ n.repr.toList) :
    Text.isAsciiDigit c = true := by
  rw [Nat.toList_repr] at h
  rw [isAsciiDigit_eq]
  exact Nat.isDigit_of_mem_toDigits (by decide) (by decide) h

theorem repr_ne_nil (n : Nat) : n.repr.toList ≠ [] := by
  rw [Nat.toList_repr]
  exact Nat.toDigits_ne_nil

theorem toList_ofNat (n : Nat) : (toString (Int.ofNat n)).toList = n.repr.toList := by
  rw [Int.toString_eq_repr]
  rfl

theorem toList_negSucc (n : Nat) :
    (toString (Int.negSucc n)).toList = '-' :: n.succ.repr.toList := by
  rw [Int.toString_eq_repr]
  show ("-" ++ n.succ.repr).toList = _
  rw [String.toList_append]
  rfl

/-- a numeral is a natural number, perhaps after a hyphen -/
theorem toList_toString (q : Int) :
    ∃ (sign : List Char) (n : Nat),
      (sign = [] ∨ sign = ['-']) ∧ (toString q).toList = sign ++ n.repr.toList := by
  cases q with
  | ofNat n => exact ⟨[], n, .inl rfl, toList_ofNat n⟩
  | negSucc n => exact ⟨['-'], n.succ, .inr rfl, toList_negSucc n⟩

theorem isNameChar_of_isAsciiDigit {c : Char} (h : Text.isAsciiDigit c = true) :
    isNameChar c = true := by
  rw [isNameChar, h, Bool.or_true, Bool.true_or, Bool.true_or]

theorem isNameChar_of_mem_toString {q : Int} {c : Char} (h : c ∈ (toString q).toList) :
    isNameChar c = true := by
  obtain ⟨sign, n, hs, he⟩ := toList_toString q
  rw [he, List.mem_append] at h
  rcases h with h | h
  · rcases hs with rfl | rfl
    · cases h
    · rw [List.mem_singleton.1 h]
      rfl
  · exact isNameChar_of_isAsciiDigit (isAsciiDigit_of_mem_repr h)

/-- a numeral ends with a digit -/
theorem exists_last_digit (q : Int) :
    ∃ front c, (toString q).toList = front ++ [c] ∧ Text.isAsciiDigit c = true := by
  obtain ⟨sign, n, _, he⟩ := toList_toString q
  refine ⟨sign ++ n.repr.toList.dropLast, n.repr.toList.getLast (repr_ne_nil n), ?_, ?_⟩
  · rw [he, List.append_assoc, List.dropLast_append_getLast]
  · exact isAsciiDigit_of_mem_repr (List.getLast_mem (repr_ne_nil n))

/-! ## the stem -/

section
variable {name : String} (hname : ∀ c ∈ name.toList, isNameChar c = true) (qubits depth : Int)

theorem toList_stem : (stem name qubits depth).toList
    = name.toList ++ ['_', 'n'] ++ (toString qubits).toList
      ++ if 0 < depth then ['_', 'd'] ++ (toString depth).toList else [] := by
  rw [stem, String.toList_append, String.toList_append, String.toList_append]
  split
  · rw [String.toList_append]
    rfl
  · rfl

omit hname in
/-- the stem adds nothing special to the name -/
theorem mem_stem {c : Char} (hc : c ∈ (stem name qubits depth).toList) :
    c ∈ name.toList ∨ isNameChar c = true := by
  rw [toList_stem] at hc
  have hmark {x y : Char} (hx : isNameChar x = true) (hy : isNameChar y = true)
      (h : c ∈ [x, y]) : isNameChar c = true := by
    rcases List.mem_pair.1 h with rfl | rfl
    · exact hx
    · exact hy
  rcases List.mem_append.1 hc with hc | hc
  · rcases List.mem_append.1 hc with hc | hc
    · rcases List.mem_append.1 hc with hc | hc
      · exact .inl hc
      · exact .inr (hmark rfl rfl hc)
    · exact .inr (isNameChar_of_mem_toString hc)
  · split at hc
    · rcases List.mem_append.1 hc with hc | hc
      · exact .inr (hmark rfl rfl hc)
      · exact .inr (isNameChar_of_mem_toString hc)
    · cases hc

include hname in
theorem isNameChar_stem : ∀ c ∈ (stem name qubits depth).toList, isNameChar c = true := by
  intro c hc
  rcases mem_stem qubits depth hc with hc | hc
  · exact hname c hc
  · exact hc

theorem stem_last_digit : ∃ front c,
    (stem name qubits depth).toList = front ++ [c] ∧ Text.isAsciiDigit c = true := by
  rw [toList_stem]
  split
  · obtain ⟨front, c, he, hc⟩ := exists_last_digit depth
    refine ⟨name.toList ++ ['_', 'n'] ++ (toString qubits).toList ++ (['_', 'd'] ++ front), c, ?_,
      hc⟩
    rw [he]
    simp only [List.append_assoc]
  · obtain ⟨front, c, he, hc⟩ := exists_last_digit qubits
    refine ⟨name.toList ++ ['_', 'n'] ++ front, c, ?_, hc⟩
    rw [he]
    simp only [List.append_assoc, List.append_nil]

end

/-! ## the two text patterns -/

/-- the characters other than `0` to `9` -/
def noDigit : CharSet := ⟨true, [.range 48 57], ⟨false, false⟩⟩

/-- the characters that are no digits in any script -/
def noDigitAtAll : CharSet := ⟨false, [.kind .digit true], ⟨false, false⟩⟩

def extension : List Char := ['.', 'q', 'a', 's', 'm']

/-- what the first pattern has after the stem -/
def plainEnding : Pattern :=
  .seq (.times .greedy 0 none (.one noDigit)) (spell extension .empty)

/-- what the second pattern has after the stem -/
def labelledEnding : Pattern :=
  .seq (.one noDigitAtAll)
    (.seq (.times .greedy 0 none (.one .inLine)) (spell extension .empty))

namespace Reading

open Pattern.Reading

/-- the item of a character that stands for itself -/
def literal (c : Char) : Item := ⟨.other, .one (.single ⟨false, false⟩ c.toNat)⟩

/-- the extension as it is written in a pattern -/
def extensionTokens : List Token := [.escaped '.', .plain 'q', .plain 'a', .plain 's', .plain 'm']

def plainTokens : List Token :=
  [.plain '[', .plain '^', .plain '0', .plain '-', .plain '9', .plain ']', .plain '*']
    ++ extensionTokens

def labelledTokens : List Token := [.escaped 'D', .plain '.', .plain '*'] ++ extensionTokens

/-- what follows the stem, the last item first -/
def plainItems : List Item :=
  (extension.map literal).reverse ++ [⟨.repeated, .times .greedy 0 none (.one noDigit)⟩]

def labelledItems : List Item :=
  (extension.map literal).reverse
    ++ [⟨.repeated, .times .greedy 0 none (.one .inLine)⟩, ⟨.other, .one noDigitAtAll⟩]

section
variable {atStart : Bool} (fuel : Nat) (items : List Item)

theorem takeSequence_extension :
    (takeSequence (fuel + 6) [] atStart items).run (fresh extensionTokens)
      = .ok (sequence ((extension.map literal).reverse ++ items), fresh []) := by
  rw [extensionTokens, takeSequence_escaped _ _ (literal '.') rfl,
    takeSequence_plain _ _ (by decide), takeSequence_plain _ _ (by decide),
    takeSequence_plain _ _ (by decide), takeSequence_plain _ _ (by decide), takeSequence_nil]
  rfl

theorem takeSequence_plainTokens :
    (takeSequence (fuel + 8) [] atStart items).run (fresh plainTokens)
      = .ok (sequence (plainItems ++ items), fresh []) := by
  have hset (ts : List Token) : (takeSet []).run
      (fresh (.plain '^' :: .plain '0' :: .plain '-' :: .plain '9' :: .plain ']' :: ts))
        = .ok (.one noDigit, fresh ts) := rfl
  rw [plainTokens, extensionTokens]
  simp only [List.cons_append, List.nil_append]
  rw [takeSequence_set _ _ (hset _), takeSequence_star, ← extensionTokens, takeSequence_extension,
    plainItems, List.append_assoc]
  rfl

theorem takeSequence_labelledTokens :
    (takeSequence (fuel + 9) [] atStart items).run (fresh labelledTokens)
      = .ok (sequence (labelledItems ++ items), fresh []) := by
  have hdot : plainItem [] '.' = ⟨.other, .one .inLine⟩ := rfl
  rw [labelledTokens, extensionTokens]
  simp only [List.cons_append, List.nil_append]
  rw [takeSequence_escaped _ _ ⟨.other, .one noDigitAtAll⟩ rfl,
    takeSequence_plain _ _ (by decide), hdot, takeSequence_star, ← extensionTokens,
    takeSequence_extension, labelledItems, List.append_assoc]
  rfl

end

end Reading

section
open Reading Pattern.Reading

/-- the tokens of a pattern that begins with a text without backslashes -/
theorem tokens?_append {cs : List Char} (hcs : '\\' ∉ cs) {rest : List Token}
    (hr : .plain '\\' ∉ rest) :
    tokens? (cs ++ written rest) = some (cs.map .plain ++ rest) := by
  have hw : written (cs.map .plain ++ rest) = cs ++ written rest := by
    rw [written, List.flatMap_append, List.flatMap_map]
    congr 1
    exact List.flatMap_singleton' _
  rw [← hw]
  apply tokens?_written
  intro h
  rcases List.mem_append.1 h with h | h
  · obtain ⟨c, hc, he⟩ := List.mem_map.1 h
    exact hcs (Token.plain.inj he ▸ hc)
  · exact hr h

theorem toList_plainPattern (stem : String) :
    (plainPattern stem).toList = stem.toList ++ written plainTokens := by
  rw [plainPattern, String.toList_append]
  rfl

variable {stem : String} (hs : ∀ c ∈ stem.toList, isNameChar c = true)
include hs

/-- a pattern that begins with the stem is read as the stem and what the rest is read as -/
theorem parse_stem {rest : List Token} {items : List Item} {source : String} {k : Nat}
    (hsource : source.toList = stem.toList ++ written rest) (hr : .plain '\\' ∉ rest)
    (hk : k ≤ 4 * rest.length + 3)
    (hrest : ∀ fuel before, (takeSequence (fuel + k) [] true before).run (fresh rest)
      = .ok (sequence (items ++ before), fresh []))
    (hcheck : (sequence items).check false = .ok ()) :
    parse source = .ok (spell stem.toList (sequence items)) := by
  have hts : tokens? source.toList = some (stem.toList.map .plain ++ rest) := by
    rw [hsource]
    exact tokens?_append (fun h => ne_of_isNameChar (hs _ h) rfl rfl) hr
  refine parse_of_tokens hts ?_ (check_spell _ hcheck)
  have hl : 4 * (stem.toList.map Token.plain ++ rest).length + 3
      = 3 * stem.toList.length + (4 * rest.length + 3 - k) + k + stem.toList.length := by
    rw [List.length_append, List.length_map]
    omega
  have hverbatim : ∀ c ∈ stem.toList, isVerbatim c = true ∧ c ≠ '|' :=
    fun c hc => ⟨isVerbatim_of_isNameChar (hs c hc), ne_of_isNameChar (hs c hc) rfl⟩
  have hbrace : '\x7b' ∉ stem.toList := fun h => ne_of_isNameChar (hs _ h) rfl rfl
  rw [hl, takeSequence_verbatim _ _ hverbatim (.inl hbrace), List.append_nil, hrest,
    sequence_append, spellSets_name hs]

theorem parse_plainPattern :
    parse (plainPattern stem) = .ok (spell stem.toList plainEnding) :=
  parse_stem hs (k := 8) (toList_plainPattern stem) (by decide) (by decide)
    takeSequence_plainTokens rfl

theorem parse_labelledPattern :
    parse (labelledPattern stem) = .ok (spell stem.toList labelledEnding) := by
  have hsource : (labelledPattern stem).toList = stem.toList ++ written labelledTokens := by
    rw [labelledPattern, String.toList_append]
    rfl
  exact parse_stem hs (k := 9) hsource (by decide) (by decide) takeSequence_labelledTokens rfl

end

/-! ## what the patterns find -/

theorem isAsciiDigit_iff (c : Char) :
    Text.isAsciiDigit c = true ↔ 48 ≤ c.toNat ∧ c.toNat ≤ 57 := by
  rw [Text.isAsciiDigit, Bool.and_eq_true, decide_eq_true_iff, decide_eq_true_iff]
  exact Iff.rfl

theorem holds_noDigit (c : Char) : noDigit.holds c = !Text.isAsciiDigit c := by
  rw [Bool.eq_iff_iff, Bool.not_eq_true', Bool.eq_false_iff, Ne, isAsciiDigit_iff]
  simp only [CharSet.holds, noDigit, SetMember.holds, Comparison.forms, List.any_cons, List.any_nil,
    Bool.or_false, Bool.bne_true, Bool.not_and, Bool.or_eq_true, Bool.not_eq_eq_eq_not,
    Bool.not_true, decide_eq_false_iff_not, not_le]
  omega

theorem holds_inLine (c : Char) : CharSet.inLine.holds c = true ↔ c ≠ '\n' := by
  have hc : c = '\n' ↔ c.toNat = 10 := Char.toNat_inj.symm
  rw [Ne, hc]
  simp [CharSet.inLine, CharSet.holds, Comparison.forms, SetMember.holds]

/-- among the ASCII characters there are no other digits -/
theorem isDigit_of_ascii {c : Char} (hc : c.toNat < 128) :
    Text.isDigit c = Text.isAsciiDigit c := by
  have hzeros : ∀ z ∈ Text.digitZeros, z = 48 ∨ 128 ≤ z := by decide
  rw [Bool.eq_iff_iff, isAsciiDigit_iff, Text.isDigit, Text.digitValue?, List.findSome?_isSome_iff]
  constructor
  · rintro ⟨z, hz, h⟩
    rcases hzeros z hz with rfl | hz
    · split at h
      · omega
      · cases h
    · rw [if_neg (by omega)] at h
      cases h
  · rintro ⟨h1, h2⟩
    exact ⟨48, by decide, by rw [if_pos (by omega)]; rfl⟩

theorem holds_noDigitAtAll {c : Char} (hc : c.toNat < 128) :
    noDigitAtAll.holds c = !Text.isAsciiDigit c := by
  rw [← isDigit_of_ascii hc]
  simp [noDigitAtAll, CharSet.holds, SetMember.holds, CharClass.holds, CharClass.holdsAny]

theorem reads_plain (stem : List Char) :
    Reads (spell stem plainEnding)
      fun w => ∃ u, w = stem ++ u ++ extension ∧ ∀ c ∈ u, Text.isAsciiDigit c = false := by
  refine (reads_spell (reads_seq (reads_many _) (reads_spell reads_empty _)) stem).congr fun w => ?_
  simp only [holds_noDigit, Bool.not_eq_true']
  constructor
  · rintro ⟨_, rfl, u, _, rfl, hu, _, rfl, rfl⟩
    exact ⟨u, by rw [List.append_nil, List.append_assoc], hu⟩
  · rintro ⟨u, rfl, hu⟩
    exact ⟨u ++ extension, List.append_assoc .., u, extension, rfl, hu, [],
      (List.append_nil _).symm, rfl⟩

theorem reads_labelled (stem : List Char) :
    Reads (spell stem labelledEnding)
      fun w => ∃ c u, w = stem ++ c :: u ++ extension ∧ noDigitAtAll.holds c = true ∧
        ∀ d ∈ u, d ≠ '\n' := by
  refine (reads_spell (reads_seq (reads_one _)
    (reads_seq (reads_many _) (reads_spell reads_empty _))) stem).congr fun w => ?_
  simp only [holds_inLine]
  constructor
  · rintro ⟨_, rfl, _, _, rfl, ⟨c, rfl, hc⟩, u, _, rfl, hu, _, rfl, rfl⟩
    refine ⟨c, u, ?_, hc, hu⟩
    rw [List.append_nil, List.append_assoc]
    rfl
  · rintro ⟨c, u, rfl, hc, hu⟩
    refine ⟨c :: (u ++ extension), ?_, [c], u ++ extension, rfl, ⟨c, rfl, hc⟩, u, extension, rfl,
      hu, [], (List.append_nil _).symm, rfl⟩
    rw [List.append_assoc]
    rfl

/-- the stem stands somewhere with a character after it that is no digit -/
def standsFree (stem cs : List Char) : Prop :=
  ∃ before c after, cs = before ++ stem ++ c :: after ∧ Text.isAsciiDigit c = false

theorem head_extension {u : List Char} (hu : ∀ c ∈ u.head?, Text.isAsciiDigit c = false) :
    ∀ c ∈ (u ++ extension).head?, Text.isAsciiDigit c = false := by
  cases u with
  | nil =>
    intro c hc
    obtain rfl := Option.some.inj hc
    rfl
  | cons c u => exact hu

theorem standsFree_of_extension {stem cs before u after : List Char}
    (hu : ∀ c ∈ u.head?, Text.isAsciiDigit c = false)
    (hcs : cs = before ++ (stem ++ u ++ extension) ++ after) : standsFree stem cs := by
  obtain ⟨c, v, hv⟩ : ∃ c v, u ++ extension = c :: v :=
    List.exists_cons_of_ne_nil (by simp [extension])
  refine ⟨before, c, v ++ after, ?_, head_extension hu c (by rw [hv]; rfl)⟩
  rw [hcs, List.append_assoc stem, hv]
  simp only [List.append_assoc, List.cons_append]

theorem selects_eq {stem : String} (hs : ∀ c ∈ stem.toList, isNameChar c = true) (file : String) :
    selects stem file = .ok ((spell stem.toList plainEnding).occursIn file.toList
      || (spell stem.toList labelledEnding).occursIn file.toList) := by
  rw [selects, parse_plainPattern hs, parse_labelledPattern hs]
  show (if _ = true then _ else _) = _
  split
  · rename_i h
    rw [h]
    rfl
  · rename_i h
    rw [Bool.eq_false_iff.2 h]
    rfl

/-- what follows a stem inside a name with the extension is the extension or longer -/
theorem after_stem {stem cs front before after : List Char} {c : Char}
    (hlast : ∃ front c, stem = front ++ [c] ∧ Text.isAsciiDigit c = true)
    (hext : cs = front ++ extension) (hcs : cs = before ++ stem ++ c :: after) :
    ∃ u, c :: after = u ++ extension := by
  rw [hext] at hcs
  rcases List.append_eq_append_iff.1 hcs with ⟨bs, hbs, hb⟩ | ⟨us, _, hu⟩
  · rcases List.eq_nil_or_concat bs with rfl | ⟨bs, d, rfl⟩
    · exact ⟨[], by rw [hb]; rfl⟩
    · -- the stem would end inside the extension, where there is no digit
      exfalso
      obtain ⟨front', e, rfl, he⟩ := hlast
      have hde : e = d := by
        rw [← List.append_assoc, List.concat_eq_append, ← List.append_assoc] at hbs
        exact (List.append_inj_right' hbs rfl |> List.singleton_inj.1)
      have hd : d ∈ extension := by
        rw [hb]
        simp
      have hno : extension.all (fun x => !Text.isAsciiDigit x) = true := rfl
      have hd := List.all_eq_true.1 hno d hd
      rw [← hde, he] at hd
      cases hd
  · exact ⟨us, hu⟩

/-- for a name that the path pattern lets through, the text patterns decide whether the stem stands
free in it -/
theorem selects_iff {stem file : String} (hs : ∀ c ∈ stem.toList, isNameChar c = true)
    (hlast : ∃ front c, stem.toList = front ++ [c] ∧ Text.isAsciiDigit c = true)
    (hascii : ∀ c ∈ file.toList, c.toNat < 128 ∧ c ≠ '\n')
    (hext : ∃ front, file.toList = front ++ extension) :
    ∃ b, selects stem file = .ok b ∧ (b = true ↔ standsFree stem.toList file.toList) := by
  refine ⟨_, selects_eq hs file, ?_⟩
  rw [Bool.or_eq_true, occursIn_iff (reads_plain _), occursIn_iff (reads_labelled _)]
  constructor
  · rintro (⟨before, _, after, hf, u, rfl, hu⟩ | ⟨before, _, after, hf, c, u, rfl, hc, _⟩)
    · exact standsFree_of_extension (fun c hc => hu c (List.mem_of_head? hc)) hf
    · have hm : c ∈ file.toList := by
        rw [hf]
        simp
      rw [holds_noDigitAtAll (hascii c hm).1, Bool.not_eq_true'] at hc
      refine standsFree_of_extension (fun d hd => ?_) hf
      rwa [← Option.some.inj hd]
  · rintro ⟨before, c, after, hf, hc⟩
    obtain ⟨front, hfront⟩ := hext
    obtain ⟨u, hu⟩ := after_stem hlast hfront hf
    rw [hu] at hf
    cases u with
    | nil =>
      refine .inl ⟨before, stem.toList ++ extension, [], ?_, [], ?_, by simp⟩
      · rw [hf]
        simp
      · rw [List.append_nil]
    | cons d u =>
      obtain ⟨rfl, _⟩ := List.cons.inj hu
      have hm (x : Char) (hx : x ∈ c :: u) : x ∈ file.toList := by
        rw [hf]
        simp only [List.mem_append]
        exact .inr (.inl hx)
      refine .inr ⟨before, stem.toList ++ c :: u ++ extension, [], ?_, c, u, rfl, ?_, ?_⟩
      · rw [hf]
        simp
      · rw [holds_noDigitAtAll (hascii c (hm c List.mem_cons_self)).1, hc, Bool.not_false]
      · intro x hx
        exact (hascii x (hm x (List.mem_cons_of_mem c hx))).2

/-! ## the coarse choice -/

theorem notMem_of_isNameChar {cs : List Char} (hcs : ∀ c ∈ cs, isNameChar c = true) {d : Char}
    (hd : isNameChar d = false) : d ∉ cs :=
  fun h => ne_of_isNameChar (hcs d h) hd rfl

theorem isPlain_of_isVerbatim {c : Char} (hc : isVerbatim c = true) :
    NamePattern.isPlain c = true := by
  simp only [isVerbatim, List.mem_cons, List.not_mem_nil, or_false, not_or,
    decide_eq_true_eq] at hc
  simp [NamePattern.isPlain, hc]

theorem isPlain_of_isNameChar {c : Char} (hc : isNameChar c = true) :
    NamePattern.isPlain c = true :=
  isPlain_of_isVerbatim (isVerbatim_of_isNameChar hc)

theorem isPattern_of_isPlain {cs : List Char} (hcs : ∀ c ∈ cs, NamePattern.isPlain c = true) :
    NamePattern.isPattern cs = false := by
  rw [NamePattern.isPattern, List.any_eq_false]
  intro c hc
  have h := hcs c hc
  simp only [NamePattern.isPlain, Bool.and_eq_true, bne_iff_ne] at h
  simp [h]

theorem isPattern_of_isNameChar {cs : List Char} (hcs : ∀ c ∈ cs, isNameChar c = true) :
    NamePattern.isPattern cs = false :=
  isPattern_of_isPlain fun c hc => isPlain_of_isNameChar (hcs c hc)

theorem toList_starred (stem : String) :
    (stem ++ "*.qasm").toList = stem.toList ++ '*' :: extension := by
  rw [String.toList_append]
  rfl

section
variable {name : String} (h0 : name ≠ "") (hplain : ∀ c ∈ name.toList, NamePattern.isPlain c = true)
  (qubits depth : Int)

include hplain in
theorem isPlain_stem : ∀ c ∈ (stem name qubits depth).toList, NamePattern.isPlain c = true := by
  intro c hc
  rcases mem_stem qubits depth hc with hc | hc
  · exact hplain c hc
  · exact isPlain_of_isNameChar hc

include hplain in
theorem nameFits_stem_of_isPlain (hdot : name.toList.head? ≠ some '.') (file : String) :
    Tree.nameFits (stem name qubits depth ++ "*.qasm") file = true ↔
      ∃ middle, file.toList = (stem name qubits depth).toList ++ middle ++ extension := by
  obtain ⟨front, last, hlast, _⟩ := @stem_last_digit name qubits depth
  have hne : (stem name qubits depth).toList ≠ [] := by
    rw [hlast]
    simp
  have hhead : (stem name qubits depth).toList.head? ≠ some '.' := by
    rw [toList_stem, List.append_assoc, List.append_assoc]
    cases hcs : name.toList with
    | nil => simp
    | cons c cs =>
      rw [hcs] at hdot
      simpa using hdot
  have hext : ∀ c ∈ ".qasm".toList, NamePattern.isPlain c = true := by
    have hall : extension.all NamePattern.isPlain = true := rfl
    exact List.all_eq_true.1 hall
  exact Tree.nameFits_star (toList_starred _) (isPlain_stem hplain qubits depth) hext hne hhead file

include h0 hplain in
theorem expand_pathPattern_of_isPlain (hslash : '/' ∉ name.toList) {t : Tree}
    {es : List (String × Tree)} (hes : t.lookup name = .ok (.dir es))
    (hnames : ∀ e ∈ es, '/' ∉ e.1.toList) :
    t.expand (pathPattern name qubits depth)
      = (es.filter fun e => Tree.nameFits (stem name qubits depth ++ "*.qasm") e.1).map
          fun e => name ++ "/" ++ e.1 := by
  have hne : name.toList ≠ [] := fun h => h0 (String.toList_eq_nil_iff.1 h)
  have hp : '/' ∉ (stem name qubits depth ++ "*.qasm").toList := by
    rw [toList_starred]
    intro h
    rcases List.mem_append.1 h with h | h
    · rcases mem_stem qubits depth h with h | h
      · exact hslash h
      · exact ne_of_isNameChar h (d := '/') rfl rfl
    · revert h
      decide
  have hpattern : NamePattern.isPattern (stem name qubits depth ++ "*.qasm").toList = true := by
    rw [toList_starred, NamePattern.isPattern, List.any_append]
    simp
  rw [pathPattern, String.append_assoc]
  exact t.expand_slash hslash hne (isPattern_of_isPlain hplain) hp hpattern hes hnames

end

section
variable {name : String} (h0 : name ≠ "") (hname : ∀ c ∈ name.toList, isNameChar c = true)
  (qubits depth : Int)
include hname

theorem nameFits_stem (file : String) :
    Tree.nameFits (stem name qubits depth ++ "*.qasm") file = true ↔
      ∃ middle, file.toList = (stem name qubits depth).toList ++ middle ++ extension :=
  nameFits_stem_of_isPlain (fun c hc => isPlain_of_isNameChar (hname c hc)) qubits depth
    (fun h => notMem_of_isNameChar hname (d := '.') rfl (List.mem_of_head? h)) file

include h0

theorem expand_pathPattern {t : Tree} {es : List (String × Tree)}
    (hes : t.lookup name = .ok (.dir es)) (hslash : ∀ e ∈ es, '/' ∉ e.1.toList) :
    t.expand (pathPattern name qubits depth)
      = (es.filter fun e => Tree.nameFits (stem name qubits depth ++ "*.qasm") e.1).map
          fun e => name ++ "/" ++ e.1 :=
  expand_pathPattern_of_isPlain h0 (fun c hc => isPlain_of_isNameChar (hname c hc)) qubits depth
    (notMem_of_isNameChar hname rfl) hes hslash

end

end CircuitBench.Bench
