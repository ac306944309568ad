import CircuitBench.Decimal.Binary

/-!
# The fewest digits that read back

`shortest m q` finds, for the value `m * 2 ^ q` (with `m` positive), the decimal with the fewest
digits among those that round to the value, and of these the nearest.

The reals that round to the value form an interval; its ends belong to it when `m` is even.  On
the grid of decimals with `k` digits the two neighbours of the value are tried, for `k` from one
to seventeen: seventeen digits always suffice.
-/

namespace CircuitBench.Decimal

/-- the decimal `digits * 10 ^ exponent` -/
structure Scientific where
  digits : Nat
  exponent : Int
  deriving DecidableEq, Repr

/-- `10 ^ e` for a natural part of an exponent, one for a negative exponent -/
def pow10 (e : Int) : Nat := 10 ^ e.toNat

/-- the reals that round to a value, in units of `2 ^ unit`: from `low` to `high`, the value in
between, the ends included when `closed` -/
structure Rounding where
  unit : Int
  low : Nat
  value : Nat
  high : Nat
  closed : Bool

/-- the interval of the value `m * 2 ^ q`: half way to both neighbours, and the lower neighbour is
only half as far when the value is the least of its binade -/
def Rounding.ofValue (m : Nat) (q : Int) : Rounding where
  unit := q - 2
  low := 4 * m - (if m = hiddenBit ∧ leastExponent < q then 1 else 2)
  value := 4 * m
  high := 4 * m + 2
  closed := m % 2 == 0

/-- what a grid step of `10 ^ p` counts, on the scale where the unit of `r` counts
`unitScale r p` -/
def gridScale (r : Rounding) (p : Int) : Nat := pow10 p * pow2 (-r.unit)

def unitScale (r : Rounding) (p : Int) : Nat := pow2 r.unit * pow10 (-p)

/-- whether `d * 10 ^ p` rounds to the value -/
def Rounding.holds (r : Rounding) (p : Int) (d : Nat) : Bool :=
  let x := d * gridScale r p
  let low := r.low * unitScale r p
  let high := r.high * unitScale r p
  if r.closed then low ≤ x && x ≤ high else low < x && x < high

/-- the grid neighbours of the value that round to it, the nearer one of two; an exact tie goes
to the even neighbour -/
def Rounding.onGrid? (r : Rounding) (p : Int) : Option Nat :=
  let value := r.value * unitScale r p
  let step := gridScale r p
  let d := value / step
  match r.holds p d, r.holds p (d + 1) with
  | false, false => none
  | true, false => some d
  | false, true => some (d + 1)
  | true, true =>
    let below := value - d * step
    let above := (d + 1) * step - value
    if below < above then some d
    else if above < below then some (d + 1)
    else some (d + d % 2)

/-- the exponent of the first digit: the greatest `e` with `10 ^ e ≤ m * 2 ^ q` -/
def leadingExponent (m : Nat) (q : Int) : Int :=
  let guess := ((m.log2 : Int) + q) * 30103 / 100000
  let reached (e : Int) : Bool := pow10 e * pow2 (-q) ≤ m * pow2 q * pow10 (-e)
  if reached (guess + 1) then guess + 1 else if reached guess then guess else guess - 1

def Scientific.strip : (fuel : Nat) → Scientific → Scientific
  | 0, s => s
  | fuel + 1, s =>
    if s.digits % 10 = 0 ∧ s.digits ≠ 0 then strip fuel ⟨s.digits / 10, s.exponent + 1⟩ else s

/-- the shortest decimal that rounds to `m * 2 ^ q` -/
def shortest (m : Nat) (q : Int) : Scientific :=
  let r := Rounding.ofValue m q
  let e := leadingExponent m q
  let found := (List.range 17).findSome? fun (k : Nat) =>
    (r.onGrid? (e - k)).map fun d => Scientific.mk d (e - k)
  (found.getD ⟨m, q⟩).strip 18

end CircuitBench.Decimal
