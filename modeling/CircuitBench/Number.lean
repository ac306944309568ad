import CircuitBench.Decimal.Real
import CircuitBench.Decimal.Written

/-!
# Numbers: whole or real

A number is whole (of any size) or real (in 64 bits).  Sums and differences of whole numbers are
exact; as soon as one side is real the other is rounded to a real first, which fails when it is
too large.  Comparisons between the two kinds are exact.
-/

namespace CircuitBench

inductive Number where
  | whole (n : Int)
  | real (x : Float)

namespace Number

open Decimal

inductive Fault where
  | nanToWhole
  | infinityToWhole
  | wholeTooLarge
  | quotientTooLarge
  deriving DecidableEq, Repr

def Fault.message : Fault → String
  | .nanToWhole => "cannot convert float NaN to integer"
  | .infinityToWhole => "cannot convert float infinity to integer"
  | .wholeTooLarge => "int too large to convert to float"
  | .quotientTooLarge => "integer division result too large for a float"

def kind : Number → String
  | .whole _ => "int"
  | .real _ => "float"

def text : Number → String
  | .whole n => wholeText n
  | .real x => realText x

def wholeToReal (n : Int) : Except Fault Float :=
  if isInRange n.natAbs 1 then .ok (ofWhole n) else .error .wholeTooLarge

def toReal : Number → Except Fault Float
  | .whole n => wholeToReal n
  | .real x => .ok x

def toWhole : Number → Except Fault Int
  | .whole n => .ok n
  | .real x =>
    match fraction? x with
    | some (n, k) => .ok (n.tdiv (2 ^ k))
    | none => if x.isNaN then .error .nanToWhole else .error .infinityToWhole

def add : Number → Number → Except Fault Number
  | .whole a, .whole b => .ok (.whole (a + b))
  | a, b => do return .real ((← a.toReal) + (← b.toReal))

def sub : Number → Number → Except Fault Number
  | .whole a, .whole b => .ok (.whole (a - b))
  | a, b => do return .real ((← a.toReal) - (← b.toReal))

def neg : Number → Number
  | .whole n => .whole (-n)
  | .real x => .real (-x)

/-- half of a number, always real: the nearest real to the exact half of a whole number -/
def half : Number → Float
  | .whole n => nearest (n < 0) n.natAbs 2
  | .real x => x / 2

/-- whether the half of a number is a real number of 64 bits -/
def hasHalf : Number → Bool
  | .whole n => isInRange n.natAbs 2
  | .real _ => true

/-- below this exponent a power of two is zero as a real -/
def powerRange : Nat := 1200

/-- the power `2 ^ k`: whole for a natural exponent, real for a negative one -/
def powerOfTwo (k : Int) : Except Fault Number :=
  if 0 ≤ k then .ok (.whole (2 ^ k.toNat))
  else if isInRange k.natAbs 1 then
    .ok (.real (if powerRange < k.natAbs then 0 else nearest false 1 (2 ^ k.natAbs)))
  else .error .wholeTooLarge

/-- equality of values, whatever the kinds; not-a-number equals nothing -/
def eq : Number → Number → Bool
  | .whole a, .whole b => a == b
  | .real x, .real y => x == y
  | .whole a, .real y =>
    match fraction? y with
    | some (n, k) => a * 2 ^ k == n
    | none => false
  | .real x, .whole b =>
    match fraction? x with
    | some (n, k) => n == b * 2 ^ k
    | none => false

/-- order of values, whatever the kinds; nothing is comparable to not-a-number -/
def le : Number → Number → Bool
  | .whole a, .whole b => a ≤ b
  | .real x, .real y => x ≤ y
  | .whole a, .real y =>
    match fraction? y with
    | some (n, k) => a * 2 ^ k ≤ n
    | none => 0 < y
  | .real x, .whole b =>
    match fraction? x with
    | some (n, k) => n ≤ b * 2 ^ k
    | none => x < 0

theorem add_whole (a b : Int) : add (.whole a) (.whole b) = .ok (.whole (a + b)) := rfl

theorem powerOfTwo_natCast (k : Nat) : powerOfTwo k = .ok (.whole (2 ^ k)) := by
  simp [powerOfTwo]

end Number

end CircuitBench
