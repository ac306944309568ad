import CircuitBench.Proofs.Bench.Naming

/-!
# Marks and the numbers behind them

A mark is a piece of text behind which a number is looked for: `_n` for the number of qubits, and
for the depth a piece like `n12_d`.  What counts is the leftmost mark of a name (`Behind`), and
behind it a numeral that is not empty (`Numeral`).

`ofName_iff` says that the summary reads an entry from a name exactly if the numbers of the entry
stand in the name in this way.
-/

namespace CircuitBench.Summary

open Bench

/-! ## the leftmost mark -/

/-- the name has a mark, and `rest` stands behind the leftmost one -/
def Behind (mark : List Char → Prop) (name rest : List Char) : Prop :=
  ∃ before m, mark m ∧ name = before ++ m ++ rest ∧
    ∀ before' m' rest', mark m' → name = before' ++ m' ++ rest' → before.length ≤ before'.length

def Unmarked (mark : List Char → Prop) (name : List Char) : Prop := ∀ m, mark m → ¬ m <:+: name

section
variable {mark : List Char → Prop}

theorem not_behind_nil (hmark : ∀ m, mark m → m ≠ []) (rest : List Char) :
    ¬ Behind mark [] rest := by
  rintro ⟨before, m, hm, h, _⟩
  obtain ⟨h, _⟩ := List.append_eq_nil_iff.1 h.symm
  exact hmark m hm (List.append_eq_nil_iff.1 h).2

/-- a mark at the very beginning is the leftmost one -/
theorem behind_iff_of_mark {m rest : List Char} (hm : mark m)
    (hone : ∀ m' rest', mark m' → m ++ rest = m' ++ rest' → rest' = rest) (rest' : List Char) :
    Behind mark (m ++ rest) rest' ↔ rest' = rest := by
  constructor
  · rintro ⟨before, m', hm', h, hleft⟩
    have hlen : before.length ≤ [].length := hleft [] m rest hm rfl
    obtain rfl : before = [] := List.length_eq_zero_iff.1 (Nat.le_zero.1 hlen)
    exact hone m' rest' hm' h
  · rintro rfl
    exact ⟨[], m, hm, rfl, fun before' _ _ _ _ => Nat.zero_le before'.length⟩

/-- where no mark begins, the search goes on -/
theorem behind_cons {c : Char} {cs : List Char} (hno : ∀ m rest, mark m → c :: cs ≠ m ++ rest)
    (rest : List Char) : Behind mark (c :: cs) rest ↔ Behind mark cs rest := by
  constructor
  · rintro ⟨before, m, hm, h, hleft⟩
    cases before with
    | nil => exact absurd h (hno m rest hm)
    | cons b before =>
      obtain ⟨rfl, hcs⟩ := List.cons.inj h
      refine ⟨before, m, hm, hcs, ?_⟩
      intro before' m' rest' hm' h'
      have hlen := hleft (c :: before') m' rest' hm' (by rw [h']; rfl)
      rw [List.length_cons, List.length_cons] at hlen
      omega
  · rintro ⟨before, m, hm, h, hleft⟩
    refine ⟨c :: before, m, hm, by rw [h]; rfl, ?_⟩
    intro before' m' rest' hm' h'
    cases before' with
    | nil => exact absurd h' (hno m' rest' hm')
    | cons b before' =>
      have hlen := hleft before' m' rest' hm' (List.cons.inj h').2
      rw [List.length_cons, List.length_cons]
      omega

theorem exists_behind_iff (name : List Char) :
    (∃ rest, Behind mark name rest) ↔ ¬ Unmarked mark name := by
  constructor
  · rintro ⟨rest, before, m, hm, h, _⟩ hno
    exact hno m hm ⟨before, rest, h.symm⟩
  · intro hmarked
    -- of all places with a mark there is one with the fewest characters before it
    have hplace : ∃ n before m rest, mark m ∧ name = before ++ m ++ rest ∧ before.length = n := by
      rw [Unmarked] at hmarked
      push Not at hmarked
      obtain ⟨m, hm, before, rest, h⟩ := hmarked
      exact ⟨_, before, m, rest, hm, h.symm, rfl⟩
    classical
    obtain ⟨before, m, rest, hm, h, hlen⟩ := Nat.find_spec hplace
    refine ⟨rest, before, m, hm, h, ?_⟩
    intro before' m' rest' hm' h'
    rw [hlen]
    exact Nat.find_min' hplace ⟨before', m', rest', hm', h', rfl⟩

end

/-! ## the two marks -/

def QubitMark (m : List Char) : Prop := m = ['_', 'n']

/-- digits with an `n` before them and `_d` behind them -/
def DepthMark (m : List Char) : Prop :=
  ∃ ds, (∀ c ∈ ds, Text.isAsciiDigit c = true) ∧ m = 'n' :: (ds ++ ['_', 'd'])

theorem qubitDigits?_eq_some_iff (name ds : List Char) :
    qubitDigits? name = some ds ↔
      ∃ rest, Behind QubitMark name rest ∧ ds = rest.takeWhile Text.isAsciiDigit := by
  fun_induction qubitDigits? name with
  | case1 cs =>
    have hone (m' rest' : List Char) (hm' : QubitMark m') (h : ['_', 'n'] ++ cs = m' ++ rest') :
        rest' = cs := by
      subst hm'
      exact (List.append_cancel_left h).symm
    have hmark : QubitMark ['_', 'n'] := rfl
    have hbehind := behind_iff_of_mark hmark hone
    simp only [List.cons_append, List.nil_append] at hbehind
    rw [Option.some.injEq, eq_comm]
    simp only [hbehind, exists_eq_left]
  | case2 c cs hno ih =>
    rw [ih]
    refine exists_congr fun rest => and_congr_left fun _ => (behind_cons ?_ rest).symm
    intro m rest hm h
    subst hm
    obtain ⟨rfl, rfl⟩ := List.cons.inj h
    exact hno rest rfl rfl
  | case3 =>
    refine iff_of_false (Option.some_ne_none ds).symm ?_
    rintro ⟨rest, h, _⟩
    refine not_behind_nil ?_ rest h
    rintro m rfl
    exact List.cons_ne_nil _ _

/-- the digits of the mark run up to its `_` -/
theorem dropWhile_digits {ds : List Char} (hds : ∀ c ∈ ds, Text.isAsciiDigit c = true)
    (rest : List Char) :
    (ds ++ '_' :: rest).dropWhile Text.isAsciiDigit = '_' :: rest := by
  rw [List.dropWhile_append_of_pos hds]
  rfl

theorem depthDigits?_eq_some_iff (name ds : List Char) :
    depthDigits? name = some ds ↔
      ∃ rest, Behind DepthMark name rest ∧ ds = rest.takeWhile Text.isAsciiDigit := by
  fun_induction depthDigits? name with
  | case1 =>
    refine iff_of_false (Option.some_ne_none ds).symm ?_
    rintro ⟨rest, h, _⟩
    refine not_behind_nil ?_ rest h
    rintro m ⟨ds, _, rfl⟩
    exact List.cons_ne_nil _ _
  | case2 cs after hdrop =>
    have hname : 'n' :: cs = 'n' :: (cs.takeWhile Text.isAsciiDigit ++ ['_', 'd']) ++ after := by
      rw [List.cons_append, List.append_assoc, List.cons_append, List.cons_append, List.nil_append,
        ← hdrop, List.takeWhile_append_dropWhile]
    have hmark : DepthMark ('n' :: (cs.takeWhile Text.isAsciiDigit ++ ['_', 'd'])) :=
      ⟨_, fun c hc => List.mem_takeWhile_imp hc, rfl⟩
    have hone (m' rest' : List Char) (hm' : DepthMark m')
        (h : 'n' :: (cs.takeWhile Text.isAsciiDigit ++ ['_', 'd']) ++ after = m' ++ rest') :
        rest' = after := by
      obtain ⟨ds', hds', rfl⟩ := hm'
      rw [← hname] at h
      have hcs : cs = ds' ++ '_' :: ('d' :: rest') := by simpa using h
      rw [hcs, dropWhile_digits hds'] at hdrop
      simpa using hdrop
    have hbehind := behind_iff_of_mark hmark hone
    rw [← hname] at hbehind
    rw [Option.some.injEq, eq_comm]
    simp only [hbehind, exists_eq_left]
  | case3 c cs hno ih =>
    rw [ih]
    refine exists_congr fun rest => and_congr_left fun _ => (behind_cons ?_ rest).symm
    rintro m rest ⟨ds, hds, rfl⟩ h
    have hcs : c = 'n' ∧ cs = ds ++ '_' :: ('d' :: rest) := by simpa using h
    refine hno rest hcs.1 ?_
    rw [hcs.2, dropWhile_digits hds]

/-! ## numerals -/

/-- the text begins with a numeral for `n`, and no digit follows it -/
def Begins (n : Nat) (text : List Char) : Prop :=
  ∃ ds rest, text = ds ++ rest ∧ ds ≠ [] ∧ (∀ c ∈ ds, Text.isAsciiDigit c = true) ∧
    (∀ c ∈ rest.head?, Text.isAsciiDigit c = false) ∧ n = Decimal.digitsValue ds

/-- the number behind the leftmost mark -/
def Numeral (mark : List Char → Prop) (name : List Char) (n : Nat) : Prop :=
  ∃ rest, Behind mark name rest ∧ Begins n rest

theorem begins_iff (n : Nat) (text : List Char) :
    Begins n text ↔ text.takeWhile Text.isAsciiDigit ≠ [] ∧
      n = Decimal.digitsValue (text.takeWhile Text.isAsciiDigit) := by
  constructor
  · rintro ⟨ds, rest, rfl, hne, hds, hrest, rfl⟩
    rw [takeWhile_digits hds hrest]
    exact ⟨hne, rfl⟩
  · rintro ⟨hne, rfl⟩
    refine ⟨_, _, List.takeWhile_append_dropWhile.symm, hne, fun c => List.mem_takeWhile_imp, ?_,
      rfl⟩
    intro c hc
    have hnot := List.head?_dropWhile_not Text.isAsciiDigit text
    rw [hc] at hnot
    exact hnot

theorem numeral_iff {mark : List Char → Prop} {digits? : List Char → Option (List Char)}
    (h : ∀ name ds, digits? name = some ds ↔
      ∃ rest, Behind mark name rest ∧ ds = rest.takeWhile Text.isAsciiDigit)
    (name : List Char) (n : Nat) :
    Numeral mark name n ↔ ∃ ds, digits? name = some ds ∧ ds ≠ [] ∧ n = Decimal.digitsValue ds := by
  simp only [Numeral, begins_iff, h]
  constructor
  · rintro ⟨rest, hrest, hne, rfl⟩
    exact ⟨_, ⟨rest, hrest, rfl⟩, hne, rfl⟩
  · rintro ⟨_, ⟨rest, hrest, rfl⟩, hne, rfl⟩
    exact ⟨rest, hrest, hne, rfl⟩

theorem numeral_qubitMark_iff (name : List Char) (q : Nat) : Numeral QubitMark name q ↔
    ∃ ds, qubitDigits? name = some ds ∧ ds ≠ [] ∧ q = Decimal.digitsValue ds :=
  numeral_iff qubitDigits?_eq_some_iff name q

theorem numeral_depthMark_iff (name : List Char) (d : Nat) : Numeral DepthMark name d ↔
    ∃ ds, depthDigits? name = some ds ∧ ds ≠ [] ∧ d = Decimal.digitsValue ds :=
  numeral_iff depthDigits?_eq_some_iff name d

theorem unmarked_depthMark_iff (name : List Char) :
    Unmarked DepthMark name ↔ depthDigits? name = none := by
  rw [← not_iff_not, ← exists_behind_iff, ← Ne, Option.ne_none_iff_exists']
  simp only [depthDigits?_eq_some_iff]
  rw [exists_comm]
  simp

/-! ## entries -/

/-- the entry has the numbers of the name, and no depth if the name has no mark for one -/
structure Entry.Of (e : Entry) (name : List Char) : Prop where
  qubits : Numeral QubitMark name e.qubits
  depth : ∀ d ∈ e.depth, Numeral DepthMark name d
  unmarked : e.depth = none → Unmarked DepthMark name

theorem ofName_iff (directory : String) (name : List Char) (e : Entry) :
    Entry.ofName directory name = .ok e ↔ e.Of name := by
  obtain ⟨q, depth⟩ := e
  rw [ofName_eq_ok_iff]
  constructor
  · rintro ⟨ds, hds, hne, hdepth, he⟩
    obtain ⟨rfl, rfl⟩ := Entry.mk.inj he
    refine ⟨(numeral_qubitMark_iff ..).2 ⟨ds, hds, hne, rfl⟩, ?_, ?_⟩
    · intro d hd
      obtain ⟨ds', hds', rfl⟩ := Option.map_eq_some_iff.1 hd
      refine (numeral_depthMark_iff ..).2 ⟨ds', hds', ?_, rfl⟩
      rintro rfl
      exact hdepth hds'
    · intro hnone
      exact (unmarked_depthMark_iff name).2 (Option.map_eq_none_iff.1 hnone)
  · rintro ⟨hqubits, hdepth, hunmarked⟩
    obtain ⟨ds, hds, hne, rfl⟩ := (numeral_qubitMark_iff ..).1 hqubits
    cases depth with
    | none =>
      have hnone := (unmarked_depthMark_iff name).1 (hunmarked rfl)
      exact ⟨ds, hds, hne, by simp [hnone], by simp [hnone]⟩
    | some d =>
      obtain ⟨ds', hds', hne', rfl⟩ := (numeral_depthMark_iff ..).1 (hdepth d rfl)
      exact ⟨ds, hds, hne, by simpa [hds'] using hne', by simp [hds']⟩

theorem reads_iff (directory : String) (names : List (List Char)) (es : List Entry) :
    Reads directory names es ↔ List.Forall₂ (fun name e => e.Of name) names es := by
  simp only [Reads, ofName_iff]

/-- a name has an entry if its first `_n` has a number behind it, and a depth is written where the
name has a mark for one -/
theorem exists_of_iff (name : List Char) :
    (∃ e : Entry, e.Of name) ↔ (∃ q, Numeral QubitMark name q) ∧
      (Unmarked DepthMark name ∨ ∃ d, Numeral DepthMark name d) := by
  constructor
  · rintro ⟨⟨q, depth⟩, hqubits, hdepth, hunmarked⟩
    refine ⟨⟨q, hqubits⟩, ?_⟩
    cases depth with
    | none => exact .inl (hunmarked rfl)
    | some d => exact .inr ⟨d, hdepth d rfl⟩
  · rintro ⟨⟨q, hqubits⟩, hunmarked | ⟨d, hdepth⟩⟩
    · exact ⟨⟨q, none⟩, hqubits, nofun, fun _ => hunmarked⟩
    · refine ⟨⟨q, some d⟩, hqubits, ?_, nofun⟩
      rintro _ ⟨⟩
      exact hdepth

end CircuitBench.Summary
