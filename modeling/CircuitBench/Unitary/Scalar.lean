import CircuitBench.Power

/-!
# Scalars

What the arithmetic of unitaries needs of its numbers.  It is a class, so that one algorithm runs on
machine numbers and can be read over exact ones.
-/

namespace CircuitBench

class Scalar (α : Type) extends Zero α, One α, Add α, Sub α, Mul α, Div α, Neg α where
  /-- the square root of the sum of the squares -/
  norm : List α → α
  isZero : α → Bool
  /-- whether the sign is negative; a zero may have a sign too -/
  isNegative : α → Bool
  /-- the factor by which numbers of this length are stretched before they are divided -/
  stretch : α → α
  /-- the principal `n`-th root of the complex number with these parts -/
  root : (n : Nat) → (re im : α) → α × α

/-- the greatest absolute value -/
def largest (xs : List Float) : Float := xs.foldl (fun m x => if m < x.abs then x.abs else m) 0

/-- machine numbers are scaled by the largest one before they are squared -/
def floatNorm (xs : List Float) : Float :=
  let m := largest xs
  if m == 0 then 0
  else m * Float.sqrt (xs.foldl (fun s x => s + (x / m) * (x / m)) 0)

def floatRoot (n : Nat) (re im : Float) : Float × Float :=
  let k := Float.ofNat n
  let r := Float.pow (floatNorm [re, im]) (1 / k)
  let t := Float.atan2 im re / k
  (r * Float.cos t, r * Float.sin t)

/-- lengths below this one are stretched: a part of such a length may be too small for its
reciprocal to be a number -/
def leastLength : Float := Float.scaleB 1 (-969)

def floatStretch (length : Float) : Float :=
  if length < leastLength then Float.scaleB 1 969 else 1

instance : Scalar Float where
  zero := 0
  one := 1
  norm := floatNorm
  isZero x := x == 0
  isNegative x := 2 ^ (63 : Nat) ≤ x.toBits.toNat
  stretch := floatStretch
  root := floatRoot

end CircuitBench
