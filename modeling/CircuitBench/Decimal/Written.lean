import CircuitBench.Decimal.Shortest

/-!
# Written real numbers

How a real number is shown: its shortest digits, with a point where the exponent of the first
digit is small, else with an exponent of at least two digits.  `Layout.report` is the layout of
every number that this library shows.  `fixed` shows a fixed number of decimal places instead.
-/

namespace CircuitBench.Decimal

structure Layout where
  /-- exponents of the first digit from here on are written with a point -/
  leastPlain : Int
  /-- exponents of the first digit up to here are written with a point -/
  greatestPlain : Int
  /-- digits of an exponent, at least -/
  exponentWidth : Nat
  nan : String
  infinity : String

/-- a point from `0.0001` up to below `10 ^ 16`, two digits of exponent beyond -/
def Layout.report : Layout where
  leastPlain := -4
  greatestPlain := 15
  exponentWidth := 2
  nan := "nan"
  infinity := "inf"

def digitChars (n : Nat) : List Char := Nat.toDigits 10 n

/-- filled up with zeros in front to `width` characters -/
def padZeros (width : Nat) (cs : List Char) : List Char :=
  List.replicate (width - cs.length) '0' ++ cs

/-- digits with a point after the digit of exponent zero; `e` is the exponent of the first digit.
At least one digit stands on either side of the point. -/
def plainChars (ds : List Char) (e : Int) : List Char :=
  if e < 0 then '0' :: '.' :: (List.replicate ((-e).toNat - 1) '0' ++ ds)
  else
    let n := e.toNat + 1
    let whole := ds.take n ++ List.replicate (n - ds.length) '0'
    let part := ds.drop n
    whole ++ '.' :: (if part.isEmpty then ['0'] else part)

/-- digits with a point after the first and an exponent -/
def exponentChars (width : Nat) (ds : List Char) (e : Int) : List Char :=
  let body := match ds with
    | [] => []
    | [d] => [d]
    | d :: ds => d :: '.' :: ds
  body ++ 'e' :: (if e < 0 then '-' else '+') :: padZeros width (digitChars e.natAbs)

def Layout.chars (l : Layout) (s : Scientific) : List Char :=
  let ds := digitChars s.digits
  let e := s.exponent + (ds.length : Int) - 1
  if l.leastPlain ≤ e ∧ e ≤ l.greatestPlain then plainChars ds e
  else exponentChars l.exponentWidth ds e

def signChars (negative : Bool) : List Char := if negative then ['-'] else []

def Layout.show (l : Layout) : Binary → List Char
  | .nan => l.nan.toList
  | .infinite negative => signChars negative ++ l.infinity.toList
  | .finite negative m q =>
    signChars negative ++ if m = 0 then ['0', '.', '0'] else l.chars (shortest m q)

/-- a real number as every message and record shows it -/
def realText (x : Float) : String := String.ofList (Layout.report.show (.ofFloat x))

/-- with exactly `places` digits after the point, a half going to the even last digit; zero has
no sign -/
def fixedChars (places : Nat) : Binary → List Char
  | .nan => Layout.report.nan.toList
  | .infinite negative => signChars negative ++ Layout.report.infinity.toList
  | .finite negative m q =>
    let n := roundDiv (m * pow2 q * 10 ^ places) (pow2 (-q))
    let ds := padZeros (places + 1) (digitChars n)
    let split := ds.length - places
    signChars (negative && n != 0) ++ ds.take split ++
      (if places = 0 then [] else '.' :: ds.drop split)

def fixedText (places : Nat) (x : Float) : String :=
  String.ofList (fixedChars places (.ofFloat x))

end CircuitBench.Decimal
