import CircuitBench.Pattern.Reader
import CircuitBench.Proofs.Pattern.Language

/-!
# Patterns that begin with a name

Letters, digits, underscores and hyphens stand for themselves in a written pattern, so a pattern may
begin with a name; what is then read is `spell`.  The reader takes one token after the other.

* `reads_spell`          the pattern reads the name and then what the rest reads;
* `takeSequence_plain` and the like    a reader after one more token;
* `parse_of_tokens`      a whole pattern from what the reader makes of its tokens.
-/

namespace CircuitBench.Pattern

def isNameChar (c : Char) : Bool :=
  Text.isAsciiLetter c || Text.isAsciiDigit c || c == '_' || c == '-'

/-- what is special in a pattern is in no name -/
theorem ne_of_isNameChar {c d : Char} (hc : isNameChar c = true) (hd : isNameChar d = false) :
    c ≠ d := by
  rintro rfl
  rw [hc] at hd
  cases hd

/-- one character after the other, then a pattern -/
def spell (cs : List Char) (p : Pattern) : Pattern :=
  cs.foldr (fun c q => .seq (.one (.single ⟨false, false⟩ c.toNat)) q) p

theorem reads_spell {p : Pattern} {L : List Char → Prop} (hp : Reads p L) (cs : List Char) :
    Reads (spell cs p) fun w => ∃ v, w = cs ++ v ∧ L v := by
  induction cs with
  | nil => exact hp.congr fun w => by simp
  | cons c cs ih =>
    refine (reads_seq (reads_one _) ih).congr fun w => ?_
    have hd (d : Char) : (CharSet.single ⟨false, false⟩ c.toNat).holds d = true ↔ d = c := by
      rw [CharSet.holds_single_exact, decide_eq_true_iff, Char.toNat_inj]
    constructor
    · rintro ⟨_, _, rfl, ⟨d, rfl, h⟩, v, rfl, hL⟩
      obtain rfl := (hd d).1 h
      exact ⟨v, rfl, hL⟩
    · rintro ⟨v, rfl, hL⟩
      exact ⟨[c], cs ++ v, rfl, ⟨c, rfl, (hd c).2 rfl⟩, v, rfl, hL⟩

/-- neither repetitions nor what looks behind -/
theorem check_spell (cs : List Char) {p : Pattern} (hp : p.check false = .ok ()) :
    (spell cs p).check false = .ok () := by
  induction cs with
  | nil => exact hp
  | cons c cs ih => exact ih

/-! ## steps of the reader -/

namespace Reading

/-- a reader that knows of no flags and no groups -/
def fresh (ts : List Token) : Progress := ⟨ts, [], [], [], none, []⟩

theorem ok_bind {ε α β : Type} (a : α) (f : α → Except ε β) : (Except.ok a >>= f) = f a := rfl

theorem run_peek (ts : List Token) :
    StateT.run peek (fresh ts) = (.ok (ts.head?, fresh ts) : Except Failure _) := rfl

theorem run_skip (t : Token) (ts : List Token) :
    StateT.run (discard take) (fresh (t :: ts)) = (.ok ((), fresh ts) : Except Failure _) := rfl

section
variable {atStart : Bool} (fuel : Nat) (items : List Item) {ts us : List Token}

theorem takeSequence_nil :
    (takeSequence (fuel + 1) [] atStart items).run (fresh []) = .ok (sequence items, fresh []) := by
  rw [takeSequence, StateT.run_bind, run_peek]
  rfl

theorem takeSequence_plain {c : Char} (hc : c ∉ ['|', ')', '[', '*', '+', '?', '\x7b', '(']) :
    (takeSequence (fuel + 1) [] atStart items).run (fresh (.plain c :: ts))
      = (takeSequence fuel [] atStart (plainItem [] c :: items)).run (fresh ts) := by
  simp only [List.mem_cons, List.not_mem_nil, or_false, not_or] at hc
  simp [takeSequence, run_peek, run_skip, ok_bind, hc]

theorem takeSequence_escaped {c : Char} (item : Item)
    (h : (takeItem [] c).run (fresh ts) = .ok (item, fresh ts)) :
    (takeSequence (fuel + 1) [] atStart items).run (fresh (.escaped c :: ts))
      = (takeSequence fuel [] atStart (item :: items)).run (fresh ts) := by
  simp [takeSequence, run_peek, run_skip, ok_bind, h]

theorem takeSequence_set {p : Pattern} (h : (takeSet []).run (fresh ts) = .ok (p, fresh us)) :
    (takeSequence (fuel + 1) [] atStart items).run (fresh (.plain '[' :: ts))
      = (takeSequence fuel [] atStart (⟨.other, p⟩ :: items)).run (fresh us) := by
  simp [takeSequence, run_peek, run_skip, ok_bind, h]

/-- a star before a token that does not change its manner -/
theorem takeSequence_star (c : Char) (p : Pattern) :
    (takeSequence (fuel + 1) [] atStart (⟨.other, p⟩ :: items)).run
        (fresh (.plain '*' :: .escaped c :: ts))
      = (takeSequence fuel [] atStart (⟨.repeated, .times .greedy 0 none p⟩ :: items)).run
          (fresh (.escaped c :: ts)) := by
  have h : (takeRepetition [] '*' (⟨.other, p⟩ :: items)).run (fresh (.escaped c :: ts))
      = .ok (⟨.repeated, .times .greedy 0 none p⟩ :: items, fresh (.escaped c :: ts)) := rfl
  simp [takeSequence, run_peek, run_skip, ok_bind, h]

end

end Reading

open Reading in
/-- a pattern whose tokens are all taken, without groups and flags -/
theorem parse_of_alternatives {source : String} {ts : List Token} {p : Pattern}
    (hts : tokens? source.toList = some ts)
    (hp : (takeAlternatives (4 * ts.length + 4) [] true true).run (fresh ts) = .ok (p, fresh []))
    (hc : p.check false = .ok ()) : parse source = .ok p := by
  have hget : StateT.run get (fresh ts) = (.ok (fresh ts, fresh ts) : Except Failure _) := rfl
  have hall : takePattern.run (fresh ts) = .ok (p, fresh []) := by
    rw [takePattern, StateT.run_bind, hget, ok_bind, StateT.run_bind]
    show (takeAlternatives (4 * ts.length + 4) [] true true).run (fresh ts) >>= _ = _
    rw [hp]
    rfl
  have hfresh : fresh ts = ⟨ts, [], [], [], none, []⟩ := rfl
  rw [hfresh] at hall
  rw [parse, hts]
  dsimp only
  rw [hall]
  show (p.check false >>= fun _ => pure p) = _
  rw [hc]
  rfl

open Reading in
/-- a pattern whose tokens are all taken in one sequence -/
theorem parse_of_tokens {source : String} {ts : List Token} {p : Pattern}
    (hts : tokens? source.toList = some ts)
    (hp : (takeSequence (4 * ts.length + 3) [] true []).run (fresh ts) = .ok (p, fresh []))
    (hc : p.check false = .ok ()) : parse source = .ok p := by
  refine parse_of_alternatives hts ?_ hc
  rw [takeAlternatives, StateT.run_bind, Bool.and_self, hp]
  rfl

end CircuitBench.Pattern
