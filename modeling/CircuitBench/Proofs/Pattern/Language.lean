import CircuitBench.Pattern.Match
import Mathlib

/-!
# The pieces that a pattern reads

A pattern without places and groups reads pieces of a text, whatever stands before and after them.
`Reads p L` says that backtracking through `p` finds every way to read a piece of `L`, and no other:
what follows is tried after each of them.

* `reads_empty`, `reads_one`, `reads_seq`   a character, one piece after the other;
* `reads_many`                              a greedy repetition of a character;
* `occursIn_iff`                            a search finds a piece wherever it stands.
-/

namespace CircuitBench.Pattern

/-- the spot after a piece of `k` characters -/
def Spot.after (s : Spot) (k : Nat) : Spot := { s with place := s.place + k }

theorem Spot.after_after (s : Spot) (k l : Nat) : (s.after k).after l = s.after (k + l) := by
  simp only [Spot.after, Nat.add_assoc]

theorem drop_after {text : Array Char} {s : Spot} {u rest : List Char}
    (h : text.toList.drop s.place = u ++ rest) :
    text.toList.drop (s.after u.length).place = rest := by
  rw [Spot.after, ← List.drop_drop, h, List.drop_left]

/-- run at a spot, the pattern reads a piece of `L` that stands there, and then what follows goes
on after the piece -/
def Reads (p : Pattern) (L : List Char → Prop) : Prop :=
  ∀ (text : Array Char) (next : Next) (s : Spot),
    (run text p next s).isSome = true ↔
      ∃ w rest, text.toList.drop s.place = w ++ rest ∧ L w ∧ (next (s.after w.length)).isSome = true

variable {p q : Pattern} {L M : List Char → Prop}

theorem Reads.congr (h : Reads p L) (hL : ∀ w, L w ↔ M w) : Reads p M := by
  have e : L = M := funext fun w => propext (hL w)
  rwa [← e]

theorem reads_empty : Reads .empty fun w => w = [] := by
  intro text next s
  constructor
  · intro h
    exact ⟨[], text.toList.drop s.place, rfl, rfl, h⟩
  · rintro ⟨w, rest, _, rfl, h⟩
    exact h

theorem reads_one (set : CharSet) : Reads (.one set) fun w => ∃ c, w = [c] ∧ set.holds c := by
  intro text next s
  have hget : text[s.place]? = (text.toList.drop s.place).head? := by
    rw [List.head?_drop, Array.getElem?_toList]
  rw [run, hget]
  cases hd : text.toList.drop s.place with
  | nil =>
    constructor
    · intro h
      cases h
    · rintro ⟨w, rest, he, ⟨c, rfl, _⟩, _⟩
      cases he
  | cons d ds =>
    simp only [List.head?_cons]
    constructor
    · intro h
      by_cases hs : set.holds d = true
      · rw [if_pos hs] at h
        exact ⟨[d], ds, rfl, ⟨d, rfl, hs⟩, h⟩
      · rw [if_neg hs] at h
        cases h
    · rintro ⟨w, rest, he, ⟨c, rfl, hc⟩, h⟩
      obtain ⟨rfl, rfl⟩ := List.cons.inj he
      rwa [if_pos hc]

theorem reads_seq (hp : Reads p L) (hq : Reads q M) :
    Reads (.seq p q) fun w => ∃ u v, w = u ++ v ∧ L u ∧ M v := by
  intro text next s
  rw [run_seq, hp]
  constructor
  · rintro ⟨u, rest, hu, hL, h⟩
    obtain ⟨v, rest', hv, hM, h'⟩ := (hq text next _).1 h
    rw [drop_after hu] at hv
    rw [Spot.after_after] at h'
    refine ⟨u ++ v, rest', ?_, ⟨u, v, rfl, hL, hM⟩, ?_⟩
    · rw [hu, hv, List.append_assoc]
    · rwa [List.length_append]
  · rintro ⟨w, rest, hw, ⟨u, v, rfl, hL, hM⟩, h⟩
    rw [List.append_assoc] at hw
    refine ⟨u, v ++ rest, hw, hL, (hq text next _).2 ⟨v, rest, drop_after hw, hM, ?_⟩⟩
    rwa [Spot.after_after, ← List.length_append]

/-! ## repetitions -/

section
variable (set : CharSet) (text : Array Char) (next : Next)

/-- either one more character is read, or what follows goes on here -/
theorem isSome_greedyTimes_succ (fuel : Nat) {last : Option Nat} {s : Spot}
    (hl : last ≠ some s.place) :
    (greedyTimes (run text (.one set)) next (fuel + 1) 0 none last s).isSome = true ↔
      (run text (.one set) (greedyTimes (run text (.one set)) next fuel 0 none (some s.place))
        s).isSome = true ∨ (next s).isSome = true := by
  have hstop : ¬ ((none : Option Nat) == some 0 || last == some s.place) = true := by
    simp [hl]
  rw [greedyTimes, if_neg hstop, Option.map_none]
  cases run text (.one set)
      (greedyTimes (run text (.one set)) next fuel 0 none (some s.place)) s with
  | none => simp
  | some r => simp

/-- one more unit of fuel than characters left is enough -/
theorem isSome_greedyTimes (fuel : Nat) :
    ∀ (last : Option Nat) (s : Spot), (text.toList.drop s.place).length < fuel →
      last ≠ some s.place →
      ((greedyTimes (run text (.one set)) next fuel 0 none last s).isSome = true ↔
        ∃ w rest, text.toList.drop s.place = w ++ rest ∧ (∀ c ∈ w, set.holds c = true) ∧
          (next (s.after w.length)).isSome = true) := by
  induction fuel with
  | zero =>
    intro last s hf
    exact absurd hf (Nat.not_lt_zero _)
  | succ fuel ih =>
    intro last s hf hl
    have hne : some s.place ≠ some (s.after 1).place := by
      simp [Spot.after]
    have hlen {c : Char} {rest : List Char} (h : text.toList.drop s.place = [c] ++ rest) :
        (text.toList.drop (s.after 1).place).length < fuel := by
      have h1 := drop_after h
      rw [List.length_singleton] at h1
      rw [h, List.length_append, List.length_singleton] at hf
      rw [h1]
      omega
    rw [isSome_greedyTimes_succ set text next fuel hl, reads_one]
    constructor
    · rintro (⟨_, rest, hd, ⟨c, rfl, hc⟩, h⟩ | h)
      · obtain ⟨w, rest', hw, hall, hn⟩ := (ih _ _ (hlen hd) hne).1 h
        rw [← List.length_singleton (a := c), drop_after hd] at hw
        rw [Spot.after_after, Nat.add_comm] at hn
        refine ⟨c :: w, rest', ?_, ?_, hn⟩
        · rw [hd, hw]
          rfl
        · intro d hm
          rcases List.mem_cons.1 hm with rfl | hm
          · exact hc
          · exact hall d hm
      · exact ⟨[], text.toList.drop s.place, rfl, by simp, h⟩
    · rintro ⟨w, rest, hw, hall, hn⟩
      cases w with
      | nil => exact .inr hn
      | cons c w =>
        have hrest := drop_after (u := [c]) hw
        refine .inl ⟨[c], w ++ rest, hw, ⟨c, rfl, hall c List.mem_cons_self⟩, ?_⟩
        refine (ih _ _ (hlen hw) hne).2 ⟨w, rest, hrest, fun d hd => ?_, ?_⟩
        · exact hall d (List.mem_cons_of_mem c hd)
        · rwa [Spot.after_after, Nat.add_comm]

end

theorem reads_many (set : CharSet) :
    Reads (.times .greedy 0 none (.one set)) fun w => ∀ c ∈ w, set.holds c = true := by
  intro text next s
  have hlen : (text.toList.drop s.place).length < 0 + (text.size - s.place + 1) + 2 := by
    rw [List.length_drop, Array.length_toList]
    omega
  rw [← isSome_greedyTimes set text next _ none s hlen (by simp), run]
  simp

/-! ## searches -/

theorem occursFrom_iff (text : Array Char) (count place : Nat) :
    p.occursFrom text count place = true ↔
      ∃ i, place ≤ i ∧ i < place + count ∧ (run text p some (.initial i)).isSome = true := by
  induction count generalizing place with
  | zero =>
    constructor
    · intro h
      cases h
    · rintro ⟨i, h1, h2, _⟩
      omega
  | succ count ih =>
    rw [occursFrom, Bool.or_eq_true, ih]
    constructor
    · rintro (h | ⟨i, h1, h2, h⟩)
      · exact ⟨place, le_rfl, by omega, h⟩
      · exact ⟨i, by omega, by omega, h⟩
    · rintro ⟨i, h1, h2, h⟩
      rcases Nat.eq_or_lt_of_le h1 with rfl | h1
      · exact .inl h
      · exact .inr ⟨i, by omega, by omega, h⟩

theorem occursIn_iff (h : Reads p L) (cs : List Char) :
    p.occursIn cs = true ↔ ∃ before w after, cs = before ++ w ++ after ∧ L w := by
  rw [occursIn, occursFrom_iff]
  constructor
  · rintro ⟨i, _, _, hi⟩
    obtain ⟨w, rest, hd, hL, _⟩ := (h _ _ _).1 hi
    refine ⟨cs.take i, w, rest, ?_, hL⟩
    rw [List.append_assoc, ← hd]
    exact (List.take_append_drop i cs).symm
  · rintro ⟨before, w, after, rfl, hL⟩
    refine ⟨before.length, Nat.zero_le _, ?_, (h _ _ _).2 ⟨w, after, ?_, hL, rfl⟩⟩
    · simp only [List.size_toArray, List.length_append]
      omega
    · show List.drop before.length (before ++ w ++ after) = w ++ after
      rw [List.append_assoc, List.drop_left]

end CircuitBench.Pattern
