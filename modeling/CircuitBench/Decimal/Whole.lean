import CircuitBench.Power
import CircuitBench.Text.Blank
import CircuitBench.Text.Digit
import CircuitBench.Text.Quoted

/-!
# Written whole numbers

A whole number is written with decimal digits of any script, a single underscore between two
digits where wanted, a sign in front and blanks around.  Numbers of more than `digitLimit` digits
are neither read nor written.
-/

namespace CircuitBench.Decimal

open Text

/-- why a text is no whole number, or a whole number has no text -/
inductive WholeFault where
  | malformed (text : String)
  | tooLong (digits : Nat)
  | tooLarge
  deriving DecidableEq, Repr

/-- the greatest number of digits that is read or written -/
def digitLimit : Nat := 4300

/-- a message shows this many characters of a malformed number, quotes included -/
def shownLimit : Nat := 200

def WholeFault.message : WholeFault → String
  | .malformed text =>
    "invalid literal for int() with base 10: " ++
      String.ofList ((quoteChars text.toList).take shownLimit)
  | .tooLong digits =>
    "Exceeds the limit (" ++ toString digitLimit ++
      " digits) for integer string conversion: value has " ++ toString digits ++
      " digits; use sys.set_int_max_str_digits() to increase the limit"
  | .tooLarge =>
    "Exceeds the limit (" ++ toString digitLimit ++
      " digits) for integer string conversion; use sys.set_int_max_str_digits()" ++
      " to increase the limit"

/-- the values of the digits of a run in which single underscores stand between digits -/
def digitRun? : List Char → Option (List Nat)
  | [] => none
  | [c] => (digitValue? c).map fun d => [d]
  | c :: '_' :: cs =>
    match digitValue? c, digitRun? cs with
    | some d, some ds => some (d :: ds)
    | _, _ => none
  | c :: cs =>
    match digitValue? c, digitRun? cs with
    | some d, some ds => some (d :: ds)
    | _, _ => none

/-- the number with the given digits, the first one leading -/
def ofDigits (ds : List Nat) : Nat := ds.foldl (fun n d => 10 * n + d) 0

def takeSign : List Char → Bool × List Char
  | '-' :: cs => (true, cs)
  | '+' :: cs => (false, cs)
  | cs => (false, cs)

def readWhole (text : String) : Except WholeFault Int :=
  let (negative, body) := takeSign (trim isNumberBlank text.toList)
  let run := body.takeWhile fun c => isDigit c || c == '_'
  match digitRun? run with
  | none => .error (.malformed text)
  | some ds =>
    if digitLimit < ds.length then .error (.tooLong ds.length)
    else if run.length < body.length then .error (.malformed text)
    else .ok (if negative then -(ofDigits ds : Int) else (ofDigits ds : Int))

def wholeText (n : Int) : String := toString n

/-- a whole number in decimal digits, if it has no more than `digitLimit` -/
def writeWhole (n : Int) : Except WholeFault String :=
  if n.natAbs < 10 ^ digitLimit then .ok (wholeText n) else .error .tooLarge

end CircuitBench.Decimal
