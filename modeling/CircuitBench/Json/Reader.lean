import CircuitBench.Json.Value

/-!
# Reading JSON

`Json.parse` reads a text as one JSON value with blanks around.  Beside the standard it takes
`NaN`, `Infinity` and `-Infinity`; of two fields with one name the last counts.  Lists and objects
may be nested `nestingLimit` deep: a reader can go as deep as the calls around it leave room, and
this is the room where counts are verified.  A fault has a place, counted in characters, lines and
columns.

Every reader takes the characters that are left and gives back those left after it; a fault holds
the number of characters that were left, from which `Fault.ofLeft` finds the place.
-/

namespace CircuitBench.Json

open Decimal Text

inductive Problem where
  | value
  | propertyName
  | colon
  | comma
  | extraData
  | unterminated
  | control
  | escape
  | unicodeEscape
  | byteOrderMark
  deriving DecidableEq, Repr

def Problem.message : Problem → String
  | .value => "Expecting value"
  | .propertyName => "Expecting property name enclosed in double quotes"
  | .colon => "Expecting ':' delimiter"
  | .comma => "Expecting ',' delimiter"
  | .extraData => "Extra data"
  | .unterminated => "Unterminated string starting at"
  | .control => "Invalid control character at"
  | .escape => "Invalid \\escape"
  | .unicodeEscape => "Invalid \\uXXXX escape"
  | .byteOrderMark => "Unexpected UTF-8 BOM (decode using utf-8-sig)"

/-- why a text is no JSON value; `left` is the number of characters from the place on -/
inductive Failure where
  | located (problem : Problem) (left : Nat)
  | whole (fault : Decimal.WholeFault)
  /-- lists and objects are nested too deep; the last one is an object or a list -/
  | nested (isObject : Bool)
  deriving DecidableEq, Repr

/-- how deep lists and objects may be nested -/
def nestingLimit : Nat := 988

/-- a problem with its place: characters before it, line and column -/
structure Fault where
  problem : Problem
  place : Nat
  line : Nat
  column : Nat
  deriving DecidableEq, Repr

def Fault.message (f : Fault) : String :=
  f.problem.message ++ ": line " ++ toString f.line ++ " column " ++ toString f.column ++
    " (char " ++ toString f.place ++ ")"

/-- lines start at one after every line feed, columns at one after the last of them -/
def Fault.ofPlace (problem : Problem) (doc : List Char) (place : Nat) : Fault :=
  let before := doc.take place
  { problem, place
    line := before.count '\n' + 1
    column := (before.reverse.takeWhile (· != '\n')).length + 1 }

def isJsonBlank (c : Char) : Bool := c == ' ' || c == '\t' || c == '\n' || c == '\r'

def skipBlanks (cs : List Char) : List Char := cs.dropWhile isJsonBlank

/-! ## texts -/

def hexValue? (c : Char) : Option Nat :=
  if '0' ≤ c ∧ c ≤ '9' then some (c.toNat - 48)
  else if 'a' ≤ c ∧ c ≤ 'f' then some (c.toNat - 87)
  else if 'A' ≤ c ∧ c ≤ 'F' then some (c.toNat - 55)
  else none

/-- the value of four hexadecimal digits and what is left after them -/
def takeHex4? : List Char → Option (Nat × List Char)
  | a :: b :: c :: d :: cs =>
    match hexValue? a, hexValue? b, hexValue? c, hexValue? d with
    | some a, some b, some c, some d => some (((a * 16 + b) * 16 + c) * 16 + d, cs)
    | _, _, _, _ => none
  | _ => none

/-- the character that a letter after a backslash stands for -/
def escaped? (c : Char) : Option Char :=
  if c = '"' ∨ c = '\\' ∨ c = '/' then some c
  else if c = 'b' then some (Char.ofNat 8)
  else if c = 'f' then some (Char.ofNat 12)
  else if c = 'n' then some '\n'
  else if c = 'r' then some '\r'
  else if c = 't' then some '\t'
  else none

def isHighHalf (n : Nat) : Bool := 0xD800 ≤ n && n < 0xDC00

def isLowHalf (n : Nat) : Bool := 0xDC00 ≤ n && n < 0xE000

/-- a code unit after `\u`, joined with the low half that may follow a high half -/
def takeUnit (cs : List Char) : Except Failure (Point × List Char) :=
  match takeHex4? cs with
  | none => .error (.located .unicodeEscape (cs.length + 1))
  | some (_, []) => .error (.located .unicodeEscape (cs.length + 1))
  | some (n, cs) =>
    match isHighHalf n && !(cs.drop 6).isEmpty, cs with
    | true, '\\' :: 'u' :: rest =>
      match takeHex4? rest with
      | none => .error (.located .unicodeEscape (rest.length + 1))
      | some (m, after) =>
        if isLowHalf m then
          .ok (.char (Char.ofNat (0x10000 + (n - 0xD800) * 0x400 + (m - 0xDC00))), after)
        else .ok (.ofUnit n, cs)
    | _, _ => .ok (.ofUnit n, cs)

/-- the characters up to the closing quotation mark; `opened` is what follows the opening one -/
def takeText (opened : List Char) : (fuel : Nat) → List Char →
    Except Failure (List Point × List Char)
  | 0, _ => .error (.located .unterminated (opened.length + 1))
  | fuel + 1, cs =>
    match cs with
    | [] => .error (.located .unterminated (opened.length + 1))
    | '"' :: cs => .ok ([], cs)
    | '\\' :: cs =>
      match cs with
      | [] => .error (.located .unterminated (opened.length + 1))
      | 'u' :: cs => do
        let (c, cs) ← takeUnit cs
        let (text, cs) ← takeText opened fuel cs
        return (c :: text, cs)
      | e :: cs =>
        match escaped? e with
        | none => .error (.located .escape (cs.length + 2))
        | some c => do
          let (text, cs) ← takeText opened fuel cs
          return (.char c :: text, cs)
    | c :: cs =>
      if c.toNat < 0x20 then .error (.located .control (cs.length + 1))
      else do
        let (text, cs) ← takeText opened fuel cs
        return (.char c :: text, cs)

/-- a text whose opening quotation mark was read -/
def readText (fuel : Nat) (cs : List Char) : Except Failure (Wide × List Char) := do
  let (text, cs) ← takeText cs fuel cs
  return (⟨text⟩, cs)

/-! ## numbers -/

/-- the digits before the point: a lone zero, or digits that start with another one -/
def takeWholeDigits : List Char → List Char × List Char
  | '0' :: cs => (['0'], cs)
  | cs => (cs.takeWhile isAsciiDigit, cs.dropWhile isAsciiDigit)

/-- the digits after a point that has one after it -/
def takePart (cs : List Char) : List Char × List Char :=
  match cs with
  | '.' :: rest =>
    let ds := rest.takeWhile isAsciiDigit
    if ds.isEmpty then ([], cs) else (ds, rest.dropWhile isAsciiDigit)
  | _ => ([], cs)

/-- an exponent that has a digit -/
def takeExponent? (cs : List Char) : Option (Int × List Char) :=
  match cs with
  | c :: rest =>
    if c = 'e' ∨ c = 'E' then
      let (negative, rest) := takeSign rest
      let ds := rest.takeWhile isAsciiDigit
      if ds.isEmpty then none
      else
        let n : Int := digitsValue ds
        some (if negative then -n else n, rest.dropWhile isAsciiDigit)
    else none
  | [] => none

def readNumber (cs : List Char) : Except Failure (Json × List Char) :=
  let (negative, body) := match cs with
    | '-' :: cs => (true, cs)
    | cs => (false, cs)
  let (whole, rest) := takeWholeDigits body
  if whole.isEmpty then .error (.located .value cs.length)
  else
    let (part, rest) := takePart rest
    match takeExponent? rest with
    | some (e, rest) =>
      .ok (.num (.real (ofDecimal negative (digitsValue (whole ++ part)) (e - part.length))), rest)
    | none =>
      if part.isEmpty then
        if digitLimit < whole.length then .error (.whole (.tooLong whole.length))
        else
          let n : Int := digitsValue whole
          .ok (.num (.whole (if negative then -n else n)), rest)
      else
        .ok (.num (.real (ofDecimal negative (digitsValue (whole ++ part)) (-part.length))), rest)

/-! ## values -/

def words : List (List Char × Json) :=
  [("null".toList, .null), ("true".toList, .bool true), ("false".toList, .bool false),
   ("NaN".toList, .num (.real (Float.ofBits 0x7FF8000000000000))),
   ("Infinity".toList, .num (.real (signed false infinityBits))),
   ("-Infinity".toList, .num (.real (signed true infinityBits)))]

def readWord? (cs : List Char) : Option (Json × List Char) :=
  words.findSome? fun (w, v) => if w.isPrefixOf cs then some (v, cs.drop w.length) else none

mutual

/-- a value; `depth` is how many more levels may be opened -/
def readValue (depth : Nat) : (fuel : Nat) → List Char → Except Failure (Json × List Char)
  | 0, cs => .error (.located .value cs.length)
  | fuel + 1, cs =>
    match cs with
    | [] => .error (.located .value 0)
    | '"' :: cs => do
      let (s, cs) ← readText fuel cs
      return (.str s, cs)
    | '[' :: cs =>
      if depth = 0 then .error (.nested false)
      else match skipBlanks cs with
      | ']' :: cs => .ok (.arr [], cs)
      | cs => do
        let (items, cs) ← readItems (depth - 1) fuel cs
        return (.arr items, cs)
    | '\x7b' :: cs =>
      if depth = 0 then .error (.nested true)
      else match skipBlanks cs with
      | '\x7d' :: cs => .ok (.obj [], cs)
      | cs => do
        let (fields, cs) ← readFields (depth - 1) fuel cs
        return (.obj (putAll fields), cs)
    | cs =>
      match readWord? cs with
      | some r => .ok r
      | none => readNumber cs

/-- the items of a list that is not empty, up to its closing bracket -/
def readItems (depth : Nat) : (fuel : Nat) → List Char →
    Except Failure (List Json × List Char)
  | 0, cs => .error (.located .value cs.length)
  | fuel + 1, cs => do
    let (v, cs) ← readValue depth fuel cs
    match skipBlanks cs with
    | ']' :: cs => return ([v], cs)
    | ',' :: cs =>
      let (vs, cs) ← readItems depth fuel (skipBlanks cs)
      return (v :: vs, cs)
    | cs => .error (.located .comma cs.length)

/-- the fields of an object that is not empty, up to its closing brace, repeated names included -/
def readFields (depth : Nat) : (fuel : Nat) → List Char →
    Except Failure (List (Wide × Json) × List Char)
  | 0, cs => .error (.located .value cs.length)
  | fuel + 1, cs =>
    match cs with
    | '"' :: cs => do
      let (k, cs) ← readText fuel cs
      match skipBlanks cs with
      | ':' :: cs =>
        let (v, cs) ← readValue depth fuel (skipBlanks cs)
        match skipBlanks cs with
        | '\x7d' :: cs => return ([(k, v)], cs)
        | ',' :: cs =>
          let (fs, cs) ← readFields depth fuel (skipBlanks cs)
          return ((k, v) :: fs, cs)
        | cs => .error (.located .comma cs.length)
      | cs => .error (.located .colon cs.length)
    | cs => .error (.located .propertyName cs.length)

end

def readDocument (doc : List Char) : Except Failure Json :=
  match doc with
  | c :: _ =>
    if c.toNat = 0xFEFF then .error (.located .byteOrderMark doc.length) else go doc
  | [] => go doc
where
  go (doc : List Char) : Except Failure Json := do
    let (v, rest) ← readValue nestingLimit (2 * doc.length + 2) (skipBlanks doc)
    match skipBlanks rest with
    | [] => return v
    | rest => .error (.located .extraData rest.length)

inductive ParseFault where
  | text (fault : Fault)
  | whole (fault : Decimal.WholeFault)
  | nested (isObject : Bool)
  deriving DecidableEq, Repr

def ParseFault.message : ParseFault → String
  | .text fault => fault.message
  | .whole fault => fault.message
  | .nested isObject =>
    "maximum recursion depth exceeded while decoding a JSON " ++
      (if isObject then "object" else "array") ++ " from a unicode string"

def parse (text : String) : Except ParseFault Json :=
  let doc := text.toList
  (readDocument doc).mapError fun
    | .located problem left => .text (.ofPlace problem doc (doc.length - left))
    | .whole fault => .whole fault
    | .nested isObject => .nested isObject

end CircuitBench.Json
