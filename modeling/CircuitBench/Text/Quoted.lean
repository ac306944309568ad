import CircuitBench.Text.Printable

/-!
# Quoted text

How a text is shown inside a message: between apostrophes, or between quotation marks when it
holds an apostrophe and no quotation mark.  The mark itself, the backslash and the three common
control characters are written as two characters, any other unprintable character by its code
point in hexadecimal digits.
-/

namespace CircuitBench.Text

def apostrophe : Char := Char.ofNat 39

def quotationMark : Char := '"'

/-- the digit of value `n` in base sixteen, small letters above nine -/
def hexDigit (n : Nat) : Char :=
  if n < 10 then Char.ofNat (48 + n) else Char.ofNat (87 + n)

/-- the last `width` digits of `n` in base sixteen -/
def hexDigits : (width : Nat) → (n : Nat) → List Char
  | 0, _ => []
  | width + 1, n => hexDigits width (n / 16) ++ [hexDigit (n % 16)]

/-- a code point as an escape: the shortest of the three widths that holds it -/
def escapeCode (n : Nat) : List Char :=
  if n < 0x100 then '\\' :: 'x' :: hexDigits 2 n
  else if n < 0x10000 then '\\' :: 'u' :: hexDigits 4 n
  else '\\' :: 'U' :: hexDigits 8 n

/-- how a character is written between two marks `mark` -/
def escapeChar (mark c : Char) : List Char :=
  if c = mark ∨ c = '\\' then ['\\', c]
  else if c = '\n' then ['\\', 'n']
  else if c = '\r' then ['\\', 'r']
  else if c = '\t' then ['\\', 't']
  else if isPrintable c then [c]
  else escapeCode c.toNat

/-- the mark that a text is put between -/
def markFor (cs : List Char) : Char :=
  if apostrophe ∈ cs ∧ quotationMark ∉ cs then quotationMark else apostrophe

def quoteChars (cs : List Char) : List Char :=
  markFor cs :: cs.flatMap (escapeChar (markFor cs)) ++ [markFor cs]

def quote (s : String) : String := String.ofList (quoteChars s.toList)

end CircuitBench.Text
