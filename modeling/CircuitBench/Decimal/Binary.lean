import CircuitBench.Power

/-!
# The 64-bit binary format

A real number is held in 64 bits: a sign, eleven bits of exponent and 52 bits of fraction.
`Binary.ofBits` unpacks them into an exact value `± m * 2 ^ q`; `nearestBits` is the way back from
an exact quotient: the nearest value, and of two the one with the even significand.
-/

namespace CircuitBench.Decimal

/-- what a 64-bit word stands for -/
inductive Binary where
  | nan
  | infinite (negative : Bool)
  /-- the value `m * 2 ^ q`, negated when `negative` -/
  | finite (negative : Bool) (m : Nat) (q : Int)
  deriving DecidableEq, Repr

/-- the significand of the least normal value of every binade -/
def hiddenBit : Nat := 2 ^ (52 : Nat)

/-- the exponent of the least positive value -/
def leastExponent : Int := -1074

/-- the exponent field that is kept for infinities and not-a-numbers -/
def topField : Nat := 2047

/-- the exact value of a word of 64 bits -/
def Binary.ofBits (bits : Nat) : Binary :=
  let negative := bits / 2 ^ (63 : Nat) % 2 == 1
  let field := bits / hiddenBit % 2048
  let fraction := bits % hiddenBit
  if field = topField then
    if fraction = 0 then .infinite negative else .nan
  else if field = 0 then .finite negative fraction leastExponent
  else .finite negative (hiddenBit + fraction) ((field : Int) - 1075)

def Binary.ofFloat (x : Float) : Binary := .ofBits x.toBits.toNat

/-- `n / d` to the nearest whole number, a half to the even one -/
def roundDiv (n d : Nat) : Nat :=
  let r := n % d
  if 2 * r < d then n / d
  else if d < 2 * r then n / d + 1
  else n / d + n / d % 2

/-- `2 ^ e` for a natural part of an exponent, one for a negative exponent -/
def pow2 (e : Int) : Nat := 2 ^ e.toNat

/-- the greatest `e` with `2 ^ e ≤ n / d`, for positive `n` and `d` -/
def floorLog2 (n d : Nat) : Int :=
  let e := (n.log2 : Int) - d.log2
  if d * pow2 e ≤ n * pow2 (-e) then e else e - 1

/-- the bits (without sign) of the value nearest to `n / d`, counted on past the greatest finite
value when the quotient is too large; `d` is positive -/
def nearestBits (n d : Nat) : Nat :=
  if n = 0 then 0
  else
    let q := max (floorLog2 n d - 52) leastExponent
    (q - leastExponent).toNat * hiddenBit + roundDiv (n * pow2 (-q)) (d * pow2 q)

def infinityBits : Nat := topField * hiddenBit

def signed (negative : Bool) (bits : Nat) : Float :=
  Float.ofBits (UInt64.ofNat (if negative then 2 ^ (63 : Nat) + bits else bits))

/-- the value nearest to `± n / d`; infinite when the quotient is too large -/
def nearest (negative : Bool) (n d : Nat) : Float :=
  signed negative (min (nearestBits n d) infinityBits)

def ofWhole (n : Int) : Float := nearest (n < 0) n.natAbs 1

/-- whether `n / d` rounds to a finite value -/
def isInRange (n d : Nat) : Bool := nearestBits n d < infinityBits

/-- the exact value of a finite float as a whole number over a power of two: `(n, k)` stands for
`n / 2 ^ k` -/
def fraction? (x : Float) : Option (Int × Nat) :=
  match Binary.ofFloat x with
  | .finite negative m q =>
    let n : Int := ((m * pow2 q : Nat) : Int)
    some (if negative then -n else n, (-q).toNat)
  | _ => none

end CircuitBench.Decimal
