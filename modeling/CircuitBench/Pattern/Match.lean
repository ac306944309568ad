import CircuitBench.Pattern.Basic

/-!
# Matching text patterns

A pattern is run at a spot of a text and hands the spots that it can end at to what follows, the
preferred one first, until what follows succeeds.

* `Pattern.run`         run a pattern, then what follows;
* `Pattern.occursIn`    whether a pattern matches at some place of a text.
-/

namespace CircuitBench.Pattern

/-- where a match has come to: a place of the text, and where groups were opened and closed -/
structure Spot where
  place : Nat
  /-- groups with the places where they were opened, the latest first -/
  opened : List (Nat × Nat)
  /-- groups with the places where they were closed, the latest first -/
  closed : List (Nat × Nat)
  deriving DecidableEq, Repr

namespace Spot

def initial (place : Nat) : Spot := ⟨place, [], []⟩

def openGroup (n : Nat) (s : Spot) : Spot := { s with opened := (n, s.place) :: s.opened }

def closeGroup (n : Nat) (s : Spot) : Spot := { s with closed := (n, s.place) :: s.closed }

/-- first and last place of the text of a group -/
def groupText? (n : Nat) (s : Spot) : Option (Nat × Nat) :=
  match s.opened.lookup n, s.closed.lookup n with
  | some first, some last => if first ≤ last then some (first, last) else none
  | _, _ => none

end Spot

/-- what a pattern hands its spots to -/
abbrev Next := Spot → Option Spot

variable (text : Array Char)

def isWordAt (ascii : Bool) (place : Nat) : Bool :=
  match text[place]? with
  | some c => CharClass.word.holds ascii c
  | none => false

/-- whether a place is of a kind; no place of an empty text is an edge or no edge -/
def atAnchor (place : Nat) : Anchor → Bool
  | .start => place == 0
  | .lineStart => place == 0 || text[place - 1]? == some '\n'
  | .stop => place == text.size
  | .finish => place == text.size || (place + 1 == text.size && text[place]? == some '\n')
  | .lineFinish => place == text.size || text[place]? == some '\n'
  | .edge negated ascii =>
    let before := place != 0 && isWordAt text ascii (place - 1)
    text.size != 0 && (before != isWordAt text ascii place) != negated

/-- whether `count` characters from `first` on stand again from `place` on -/
def repeatsAt (cmp : Comparison) (first : Nat) : (count place : Nat) → Bool
  | 0, _ => true
  | count + 1, place =>
    match text[first]?, text[place]? with
    | some c, some d => cmp.same c d && repeatsAt cmp (first + 1) count (place + 1)
    | _, _ => false

/-! ## repetitions

`body` runs the repeated pattern.  Once the least number is reached, a repetition that consumed
nothing (`last` is the place where it started) is the last one. -/

def greedyTimes (body : Next → Next) (next : Next) :
    (fuel least : Nat) → (most : Option Nat) → (last : Option Nat) → Next
  | 0, _, _, _, _ => none
  | fuel + 1, least + 1, most, last, s =>
    body (greedyTimes body next fuel least (most.map (· - 1)) last) s
  | fuel + 1, 0, most, last, s =>
    if most == some 0 || last == some s.place then next s
    else
      match body (greedyTimes body next fuel 0 (most.map (· - 1)) (some s.place)) s with
      | some r => some r
      | none => next s

def lazyTimes (body : Next → Next) (next : Next) :
    (fuel least : Nat) → (most : Option Nat) → (last : Option Nat) → Next
  | 0, _, _, _, _ => none
  | fuel + 1, least + 1, most, last, s =>
    body (lazyTimes body next fuel least (most.map (· - 1)) last) s
  | fuel + 1, 0, most, last, s =>
    match next s with
    | some r => some r
    | none =>
      if most == some 0 || last == some s.place then none
      else body (lazyTimes body next fuel 0 (most.map (· - 1)) (some s.place)) s

/-- where repetitions end that each take the first way to match -/
def possessiveTimes (body : Next) :
    (fuel least : Nat) → (most : Option Nat) → (last : Option Nat) → Next
  | 0, _, _, _, _ => none
  | fuel + 1, least + 1, most, last, s =>
    match body s with
    | some r => possessiveTimes body fuel least (most.map (· - 1)) last r
    | none => none
  | fuel + 1, 0, most, last, s =>
    if most == some 0 || last == some s.place then some s
    else
      match body s with
      | some r => possessiveTimes body fuel 0 (most.map (· - 1)) (some s.place) r
      | none => some s

/-- run a pattern at a spot, then what follows -/
def run : Pattern → Next → Next
  | .empty, next, s => next s
  | .one set, next, s =>
    match text[s.place]? with
    | some c => if set.holds c then next { s with place := s.place + 1 } else none
    | none => none
  | .anchor a, next, s => if atAnchor text s.place a then next s else none
  | .seq p q, next, s => run p (run q next) s
  | .alt p q, next, s =>
    match run p next s with
    | some r => some r
    | none => run q next s
  | .times manner least most p, next, s =>
    -- more repetitions than characters make no difference
    let left := text.size - s.place + 1
    let spare := least - left
    let least := least - spare
    let most := most.map (· - spare)
    let fuel := least + left + 2
    match manner with
    | .greedy => greedyTimes (run p) next fuel least most none s
    | .lazy => lazyTimes (run p) next fuel least most none s
    | .possessive =>
      match possessiveTimes (run p some) fuel least most none s with
      | some r => next r
      | none => none
  | .ahead negated p, next, s =>
    match run p some s, negated with
    | some r, false => next { r with place := s.place }
    | none, true => next s
    | _, _ => none
  | .behind negated least _ p, next, s =>
    if s.place < least then if negated then next s else none
    else
      match run p some { s with place := s.place - least }, negated with
      | some r, false => next { r with place := s.place }
      | none, true => next s
      | _, _ => none
  | .once p, next, s =>
    match run p some s with
    | some r => next r
    | none => none
  | .group n p, next, s => run p (fun r => next (r.closeGroup n)) (s.openGroup n)
  | .again cmp n, next, s =>
    match s.groupText? n with
    | some (first, last) =>
      if repeatsAt text cmp first (last - first) s.place then
        next { s with place := s.place + (last - first) }
      else none
    | none => none
  | .ifGroup n p q, next, s => if (s.groupText? n).isSome then run p next s else run q next s

/-- whether the pattern matches at one of `count` places from `place` on -/
def occursFrom (p : Pattern) : (count place : Nat) → Bool
  | 0, _ => false
  | count + 1, place =>
    (run text p some (.initial place)).isSome || occursFrom p count (place + 1)

def occursIn (p : Pattern) (cs : List Char) : Bool :=
  let text := cs.toArray
  p.occursFrom text (text.size + 1) 0

/-! ## laws -/

theorem run_seq (p q : Pattern) (next : Next) :
    run text (.seq p q) next = run text p (run text q next) := rfl

/-- the second alternative counts only where the first one leads nowhere -/
theorem run_alt (p q : Pattern) (next : Next) (s : Spot) :
    run text (.alt p q) next s = (run text p next s).or (run text q next s) := by
  simp only [run]
  cases run text p next s <;> rfl

end CircuitBench.Pattern
