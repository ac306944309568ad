import CircuitBench.Pattern.CharSet

/-!
# Text patterns

A pattern describes pieces of a text: characters of a set, one after the other, alternatives,
repetitions, places, what stands before or after a place, and groups whose text can be taken up
again.

`Pattern.width` says how many characters a pattern can match, at least and at most.
-/

namespace CircuitBench

/-- a kind of place in a text -/
inductive Anchor where
  /-- the beginning of the text -/
  | start
  /-- the beginning of the text or of a line -/
  | lineStart
  /-- the end of the text -/
  | stop
  /-- the end of the text, or before the line feed that ends it -/
  | finish
  /-- the end of the text or of a line -/
  | lineFinish
  /-- between a word and something else, or at no such place (`negated`) -/
  | edge (negated ascii : Bool)
  deriving DecidableEq, Repr

/-- how a repetition chooses its number of times -/
inductive Manner where
  /-- as often as possible first -/
  | greedy
  /-- as seldom as possible first -/
  | lazy
  /-- as often as possible, and no other number -/
  | possessive
  deriving DecidableEq, Repr

inductive Pattern where
  | empty
  | one (set : CharSet)
  | anchor (a : Anchor)
  | seq (p q : Pattern)
  | alt (p q : Pattern)
  /-- at least `least` and at most `most` times -/
  | times (manner : Manner) (least : Nat) (most : Option Nat) (p : Pattern)
  /-- what follows matches, or does not (`negated`) -/
  | ahead (negated : Bool) (p : Pattern)
  /-- what goes before matches, or does not; it has from `least` to `most` characters -/
  | behind (negated : Bool) (least : Nat) (most : Option Nat) (p : Pattern)
  /-- the first way to match, and no other -/
  | once (p : Pattern)
  /-- a piece that is kept under a number -/
  | group (n : Nat) (p : Pattern)
  /-- the text of a group again -/
  | again (cmp : Comparison) (n : Nat)
  /-- one pattern if a group has a text, another one if it has none -/
  | ifGroup (n : Nat) (p q : Pattern)
  deriving DecidableEq, Repr

/-- the least and the greatest number of characters; `none` is without bound -/
structure Width where
  least : Nat
  most : Option Nat
  deriving DecidableEq, Repr

namespace Width

def exactly (n : Nat) : Width := ⟨n, some n⟩

def add (v w : Width) : Width :=
  ⟨v.least + w.least,
   match v.most, w.most with
   | some m, some n => some (m + n)
   | _, _ => none⟩

def join (v w : Width) : Width :=
  ⟨min v.least w.least,
   match v.most, w.most with
   | some m, some n => some (max m n)
   | _, _ => none⟩

def times (least : Nat) (most : Option Nat) (w : Width) : Width :=
  ⟨w.least * least,
   match w.most, most with
   | some 0, _ => some 0
   | some m, some n => some (m * n)
   | none, some 0 => some 0
   | _, _ => none⟩

end Width

namespace Pattern

/-- how many characters a pattern can match; `groups` has the widths of the groups -/
def width (groups : Nat → Width) : Pattern → Width
  | .empty => .exactly 0
  | .one _ => .exactly 1
  | .anchor _ => .exactly 0
  | .seq p q => (p.width groups).add (q.width groups)
  | .alt p q => (p.width groups).join (q.width groups)
  | .times _ least most p => (p.width groups).times least most
  | .ahead _ _ => .exactly 0
  | .behind _ _ _ _ => .exactly 0
  | .once p => p.width groups
  | .group _ p => p.width groups
  | .again _ n => groups n
  | .ifGroup _ p q => (p.width groups).join (q.width groups)

end Pattern

end CircuitBench
