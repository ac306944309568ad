import CircuitBench.Decimal.Binary
import CircuitBench.Decimal.Whole

/-!
# Reading real numbers

A written real number is an optional sign, digits of any script with at most one point, and an
optional exponent; or one of the words for infinity and not-a-number.  The value is the nearest
64-bit value to the written decimal.
-/

namespace CircuitBench.Decimal

open Text

/-- beyond this power of ten every value is infinite, and below its inverse zero -/
def decimalRange : Int := 400

/-- the value nearest to `± n * 10 ^ e` -/
def ofDecimal (negative : Bool) (n : Nat) (e : Int) : Float :=
  let top := e + (Nat.toDigits 10 n).length
  if n = 0 then signed negative 0
  else if decimalRange < top then signed negative infinityBits
  else if top < -decimalRange then signed negative 0
  else nearest negative (n * 10 ^ e.toNat) (10 ^ (-e).toNat)

/-- digits as an ASCII text: a digit of any script becomes the digit of its value, and the
underscores between two digits go away; `none` where an underscore stands elsewhere -/
def plainDigits? (before : Bool) : List Char → Option (List Char)
  | [] => some []
  | '_' :: cs =>
    match cs with
    | c :: _ => if before && isDigit c then plainDigits? false cs else none
    | [] => none
  | c :: cs =>
    match digitValue? c with
    | some d => (plainDigits? true cs).map (Char.ofNat (48 + d) :: ·)
    | none => (plainDigits? false cs).map (c :: ·)

def digitsValue (cs : List Char) : Nat := ofDigits (cs.map fun c => c.toNat - 48)

/-- the exponent part: nothing, or a mark, an optional sign and digits -/
def readExponent? : List Char → Option Int
  | [] => some 0
  | c :: cs =>
    if c = 'e' ∨ c = 'E' then
      let (negative, ds) := takeSign cs
      if ds.isEmpty ∨ ¬ ds.all isAsciiDigit then none
      else some (if negative then -(digitsValue ds : Int) else (digitsValue ds : Int))
    else none

def readUnsigned? (negative : Bool) (cs : List Char) : Option Float :=
  let word := String.ofList (cs.map Char.toLower)
  if word = "inf" ∨ word = "infinity" then some (signed negative infinityBits)
  else if word = "nan" then some (Float.ofBits 0x7FF8000000000000)
  else
    let whole := cs.takeWhile isAsciiDigit
    let rest := cs.dropWhile isAsciiDigit
    let (part, rest) := match rest with
      | '.' :: rest => (rest.takeWhile isAsciiDigit, rest.dropWhile isAsciiDigit)
      | rest => ([], rest)
    if whole.isEmpty && part.isEmpty then none
    else
      (readExponent? rest).map fun e =>
        ofDecimal negative (digitsValue (whole ++ part)) (e - part.length)

def readReal? (text : String) : Option Float :=
  match plainDigits? false (trim isNumberBlank text.toList) with
  | none => none
  | some cs =>
    let (negative, body) := takeSign cs
    readUnsigned? negative body

end CircuitBench.Decimal
