import CircuitBench.Text.Blank
import CircuitBench.Text.Case
import CircuitBench.Text.Letter

/-!
# Sets of characters

A set is given by ranges of code points and by classes.  How a character is compared with a set is a
`Comparison`: with or without case, and with the letters and digits of all scripts or of ASCII only.

* `CharSet.holds`         whether a character belongs to a set;
* `Comparison.same`       whether two characters count as one.
-/

namespace CircuitBench

/-- how characters are compared -/
structure Comparison where
  ignoreCase : Bool
  /-- letters, digits and blanks are those of ASCII -/
  ascii : Bool
  deriving DecidableEq, Repr

namespace Comparison

/-- the code points that count as `n` -/
def forms (cmp : Comparison) (n : Nat) : List Nat :=
  match cmp.ignoreCase, cmp.ascii with
  | false, _ => [n]
  | true, true => Text.asciiCaseForms n
  | true, false => Text.caseForms n

/-- whether a text that is taken up again may have `d` for `c` -/
def same (cmp : Comparison) (c d : Char) : Bool :=
  match cmp.ignoreCase, cmp.ascii with
  | false, _ => c == d
  | true, true => Text.smallAsciiCode c.toNat == Text.smallAsciiCode d.toNat
  | true, false => Text.smallCode c.toNat == Text.smallCode d.toNat

end Comparison

inductive CharClass where
  | digit
  | blank
  | word
  deriving DecidableEq, Repr

namespace CharClass

def holdsAscii (c : Char) : CharClass → Bool
  | .digit => Text.isAsciiDigit c
  | .blank => c == ' ' || (9 ≤ c.toNat && c.toNat ≤ 13)
  | .word => Text.isAsciiLetter c || Text.isAsciiDigit c || c == '_'

def holdsAny (c : Char) : CharClass → Bool
  | .digit => Text.isDigit c
  | .blank => Text.isBlank c
  | .word => Text.isWordChar c

def holds (ascii : Bool) (c : Char) (k : CharClass) : Bool :=
  if ascii then k.holdsAscii c else k.holdsAny c

end CharClass

inductive SetMember where
  | range (first last : Nat)
  | kind (k : CharClass) (negated : Bool)
  deriving DecidableEq, Repr

/-- whether a member covers a character; `forms` are the code points that count as it -/
def SetMember.holds (ascii : Bool) (c : Char) (forms : List Nat) : SetMember → Bool
  | .range first last => forms.any fun n => first ≤ n && n ≤ last
  | .kind k negated => k.holds ascii c != negated

structure CharSet where
  negated : Bool
  members : List SetMember
  comparison : Comparison
  deriving DecidableEq, Repr

namespace CharSet

def holds (s : CharSet) (c : Char) : Bool :=
  let forms := s.comparison.forms c.toNat
  s.members.any (·.holds s.comparison.ascii c forms) != s.negated

def single (cmp : Comparison) (code : Nat) : CharSet := ⟨false, [.range code code], cmp⟩

def everything : CharSet := ⟨true, [], ⟨false, false⟩⟩

/-- all characters but the line feed -/
def inLine : CharSet := ⟨true, [.range 10 10], ⟨false, false⟩⟩

theorem holds_single_exact (ascii : Bool) (code : Nat) (c : Char) :
    (single ⟨false, ascii⟩ code).holds c = decide (c.toNat = code) := by
  simp only [holds, single, Comparison.forms, SetMember.holds, List.any_cons, List.any_nil,
    Bool.or_false, Bool.bne_false, ← Bool.decide_and]
  exact decide_eq_decide.2 ⟨fun h => by omega, fun h => by omega⟩

end CharSet

end CircuitBench
