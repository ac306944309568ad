import CircuitBench.Tree.Expand
import Mathlib

/-!
# Listing one directory by a pattern

A path pattern with one slash lists a directory: `expand_slash` gives the entries whose names fit
the part after the slash, in the order of the directory.  For a pattern with one star
`nameFits_star` says which names these are: those that begin with what stands before the star and
end with what stands after it, the two not overlapping.
-/

namespace CircuitBench

/-! ## paths of one slash -/

namespace Path

theorem cutBack_of_notMem {a : List Char} (ha : '/' ∉ a) (b : List Char) :
    cutBack (a ++ '/' :: b) = (a, '/' :: b) := by
  induction a with
  | nil => rfl
  | cons c a ih =>
    obtain ⟨hc, ha⟩ := not_or.1 fun h => ha (List.mem_cons.2 h)
    rw [List.cons_append, cutBack, if_neg (Ne.symm hc), ih ha]

theorem toList_slash (dir name : String) :
    (dir ++ "/" ++ name).toList = dir.toList ++ '/' :: name.toList := by
  rw [String.toList_append, String.toList_append, List.append_assoc]
  rfl

section
variable {dir name : String} (hn : '/' ∉ name.toList)
include hn

theorem cutBack_slash : cutBack (dir ++ "/" ++ name).toList.reverse
    = (name.toList.reverse, '/' :: dir.toList.reverse) := by
  have hr : (dir.toList ++ '/' :: name.toList).reverse
      = name.toList.reverse ++ '/' :: dir.toList.reverse := by
    simp
  rw [toList_slash, hr, cutBack_of_notMem fun h => hn (List.mem_reverse.1 h)]

theorem baseNameChars_slash : baseNameChars (dir ++ "/" ++ name).toList = name.toList := by
  rw [baseNameChars, cutBack_slash hn, List.reverse_reverse]

theorem baseName_slash : baseName (dir ++ "/" ++ name) = name := by
  rw [baseName, baseNameChars_slash hn, String.ofList_toList]

theorem parent_slash (hd : '/' ∉ dir.toList) (h0 : dir.toList ≠ []) :
    parent (dir ++ "/" ++ name) = dir := by
  obtain ⟨c, cs, hr⟩ := List.exists_cons_of_ne_nil (mt List.reverse_eq_nil_iff.1 h0)
  have hc : c ≠ '/' := by
    rintro rfl
    exact hd (List.mem_reverse.1 (hr ▸ List.mem_cons_self))
  have hhead : ('/' :: c :: cs).dropWhile (· = '/') = c :: cs := by
    rw [List.dropWhile_cons_of_pos (by simp), List.dropWhile_cons_of_neg (by simpa using hc)]
  have hback : (c :: cs).reverse = dir.toList := by
    rw [← hr, List.reverse_reverse]
  rw [parent, parentChars, cutBack_slash hn, hr]
  simp only [hhead, hback, String.ofList_toList]

end

theorem isEmpty_eq_false {s : String} (h : s.toList ≠ []) : s.isEmpty = false := by
  rw [Bool.eq_false_iff]
  intro he
  exact h (by rw [String.isEmpty_iff.1 he]; rfl)

theorem isAbsolute_of_notMem {p : String} (h : '/' ∉ p.toList) : isAbsolute p = false := by
  rw [isAbsolute, String.startsWith_string_eq_false_iff]
  rintro ⟨rest, hr⟩
  exact h (hr ▸ List.mem_cons_self)

/-- a slash goes between a directory and a name, whatever stands before the name of the
directory -/
theorem join_append {front dir p : String} (hd : '/' ∉ dir.toList) (h0 : dir.toList ≠ [])
    (hp : '/' ∉ p.toList) : join (front ++ dir) p = front ++ dir ++ "/" ++ p := by
  have hends : (front ++ dir).endsWith "/" = false := by
    rw [String.endsWith_eq_endsWith_toSlice, String.Slice.endsWith_string_eq_false_iff]
    rintro ⟨rest, hf⟩
    rw [String.copy_toSlice, String.toList_append, ← List.dropLast_append_getLast h0,
      ← List.append_assoc] at hf
    have hlast := congrArg List.getLast? hf
    rw [show "/".toList = ['/'] from rfl, List.getLast?_concat, List.getLast?_concat] at hlast
    exact hd (Option.some.inj hlast ▸ List.getLast_mem h0)
  have hne : (front ++ dir).toList ≠ [] := by
    rw [String.toList_append]
    exact List.append_ne_nil_of_right_ne_nil _ h0
  rw [join, isAbsolute_of_notMem hp, isEmpty_eq_false hne, hends]
  rfl

theorem join_of_notMem {dir p : String} (hd : '/' ∉ dir.toList) (h0 : dir.toList ≠ [])
    (hp : '/' ∉ p.toList) : join dir p = dir ++ "/" ++ p := by
  have h := @join_append "" dir p hd h0 hp
  rwa [String.empty_append] at h

end Path

/-! ## patterns with one star -/

namespace NamePattern

/-- the character stands for itself in a pattern -/
def isPlain (c : Char) : Bool := c != '*' && c != '?' && c != '['

theorem read_plain (fuel : Nat) {cs : List Char} (hcs : ∀ c ∈ cs, isPlain c = true)
    (rest : List Char) :
    read (cs.length + fuel) (cs ++ rest) = cs.map .char ++ read fuel rest := by
  induction cs with
  | nil => rw [List.length_nil, Nat.zero_add]; rfl
  | cons c cs ih =>
    have hc := hcs c List.mem_cons_self
    simp only [isPlain, Bool.and_eq_true, bne_iff_ne] at hc
    obtain ⟨⟨h1, h2⟩, h3⟩ := hc
    have hl : (c :: cs).length + fuel = cs.length + fuel + 1 := by
      rw [List.length_cons]
      omega
    rw [hl, List.cons_append, List.map_cons, List.cons_append,
      ← ih fun d hd => hcs d (List.mem_cons_of_mem c hd), read]
    · exact h1
    · exact h2
    · exact h3

theorem ofChars_star {front back : List Char} (hf : ∀ c ∈ front, isPlain c = true)
    (hb : ∀ c ∈ back, isPlain c = true) :
    ofChars (front ++ '*' :: back) = front.map .char ++ .any :: back.map .char := by
  have hl : (front ++ '*' :: back).length = front.length + (back.length + 1) := by
    rw [List.length_append, List.length_cons]
  have hback := read_plain 0 hb []
  rw [Nat.add_zero, List.append_nil, read, List.append_nil] at hback
  rw [ofChars, hl, read_plain _ hf, read, hback]

theorem fits_chars (cs : List Char) (ps : List Piece) (ds : List Char) :
    fits (cs.map .char ++ ps) ds = true ↔ ∃ es, ds = cs ++ es ∧ fits ps es = true := by
  induction cs generalizing ds with
  | nil => simp
  | cons c cs ih =>
    cases ds with
    | nil => simp [fits]
    | cons d ds =>
      rw [List.map_cons, List.cons_append, fits_char_cons, Bool.and_eq_true, ih, beq_iff_eq]
      constructor
      · rintro ⟨rfl, es, rfl, h⟩
        exact ⟨es, rfl, h⟩
      · rintro ⟨es, he, h⟩
        obtain ⟨rfl, rfl⟩ := List.cons.inj he
        exact ⟨rfl, es, rfl, h⟩

theorem fits_any (ps : List Piece) (ds : List Char) :
    fits (.any :: ps) ds = true ↔ ∃ us vs, ds = us ++ vs ∧ fits ps vs = true := by
  induction ds with
  | nil =>
    rw [fits]
    constructor
    · intro h
      exact ⟨[], [], rfl, h⟩
    · rintro ⟨us, vs, he, h⟩
      obtain ⟨_, rfl⟩ := List.append_eq_nil_iff.1 he.symm
      exact h
  | cons d ds ih =>
    rw [fits, Bool.or_eq_true, ih]
    constructor
    · rintro (h | ⟨us, vs, rfl, h⟩)
      · exact ⟨[], d :: ds, rfl, h⟩
      · exact ⟨d :: us, vs, rfl, h⟩
    · rintro ⟨us, vs, he, h⟩
      cases us with
      | nil =>
        rw [List.nil_append] at he
        exact .inl (he ▸ h)
      | cons u us =>
        obtain ⟨rfl, rfl⟩ := List.cons.inj he
        exact .inr ⟨us, vs, rfl, h⟩

theorem fitsAll_star {front back : List Char} (hf : ∀ c ∈ front, isPlain c = true)
    (hb : ∀ c ∈ back, isPlain c = true) (ds : List Char) :
    fitsAll (ofChars (front ++ '*' :: back)) ds = true ↔
      ∃ middle, ds = front ++ middle ++ back := by
  have hback (es : List Char) : fits (back.map .char) es = true ↔ es = back := by
    have h := fits_chars back [] es
    rw [List.append_nil] at h
    rw [h]
    simp
  rw [fitsAll_eq, ofChars_star hf hb, fits_chars]
  simp only [fits_any, hback]
  constructor
  · rintro ⟨_, rfl, us, _, rfl, rfl⟩
    exact ⟨us, (List.append_assoc ..).symm⟩
  · rintro ⟨us, rfl⟩
    exact ⟨us ++ back, List.append_assoc .., us, back, rfl, rfl⟩

end NamePattern

/-! ## the listing -/

namespace Tree

theorem isHidden_iff (name : String) : isHidden name = true ↔ name.toList.head? = some '.' := by
  rw [isHidden, String.startsWith_string_iff]
  cases h : name.toList with
  | nil => simp
  | cons c cs => simp [List.cons_prefix_cons, eq_comm]

/-- a pattern with one star that does not begin with a dot -/
theorem nameFits_star {front back pattern : String}
    (hp : pattern.toList = front.toList ++ '*' :: back.toList)
    (hf : ∀ c ∈ front.toList, NamePattern.isPlain c = true)
    (hb : ∀ c ∈ back.toList, NamePattern.isPlain c = true)
    (h0 : front.toList ≠ []) (hdot : front.toList.head? ≠ some '.') (name : String) :
    nameFits pattern name = true ↔
      ∃ middle, name.toList = front.toList ++ middle ++ back.toList := by
  rw [nameFits, Bool.and_eq_true, hp, NamePattern.fitsAll_star hf hb]
  constructor
  · intro h
    exact h.2
  · rintro ⟨middle, hm⟩
    refine ⟨?_, middle, hm⟩
    have hvisible : isHidden name = false := by
      rw [Bool.eq_false_iff, Ne, isHidden_iff, hm, List.append_assoc,
        List.head?_append_of_ne_nil _ h0]
      exact hdot
    rw [hvisible, Bool.not_false, Bool.or_true]

/-- the entries of a directory that fit a pattern, in the order of the directory -/
theorem expand_slash (t : Tree) {dir pattern : String} {es : List (String × Tree)}
    (hd : '/' ∉ dir.toList) (h0 : dir.toList ≠ [])
    (hplain : NamePattern.isPattern dir.toList = false) (hp : '/' ∉ pattern.toList)
    (hpattern : NamePattern.isPattern pattern.toList = true) (hes : t.lookup dir = .ok (.dir es))
    (hnames : ∀ e ∈ es, '/' ∉ e.1.toList) :
    t.expand (dir ++ "/" ++ pattern)
      = (es.filter fun e => nameFits pattern e.1).map fun e => dir ++ "/" ++ e.1 := by
  have hempty := Path.isEmpty_eq_false h0
  have hentries : t.entriesAt dir = es := by
    rw [entriesAt, hempty, if_neg Bool.false_ne_true, hes]
    rfl
  have hnot : ¬ (dir ≠ dir ++ "/" ++ pattern ∧ NamePattern.isPattern dir.toList = true) := by
    rw [hplain]
    simp
  rw [expand, expandFrom]
  simp only [Path.parent_slash hp hd h0, Path.baseName_slash hp, hempty, Bool.false_eq_true,
    if_false, if_neg hnot, List.flatMap_singleton]
  rw [namesFitting, if_pos hpattern, hentries, List.map_map]
  simp only [Bool.not_false, Bool.true_or, Bool.true_and]
  apply List.map_congr_left
  intro e he
  exact Path.join_of_notMem hd h0 (hnames e (List.mem_filter.1 he).1)

end Tree

end CircuitBench
