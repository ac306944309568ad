import CircuitBench.Pattern.Flag
import CircuitBench.Text.CharName

/-!
# Escapes and sets in patterns

A backslash takes the meaning from a special character, makes a letter a class, a place or a control
character, or starts a character code or the number of a group.

* `takeItem`      what a backslash and a character stand for;
* `takeSet`       a set in brackets.
-/

namespace CircuitBench.Pattern

inductive ItemKind where
  | anchor
  | repeated
  | other
  deriving DecidableEq, Repr

structure Item where
  kind : ItemKind
  pattern : Pattern

/-- the class that a letter after a backslash stands for -/
def classOf? : Char → Option SetMember
  | 'd' => some (.kind .digit false)
  | 'D' => some (.kind .digit true)
  | 's' => some (.kind .blank false)
  | 'S' => some (.kind .blank true)
  | 'w' => some (.kind .word false)
  | 'W' => some (.kind .word true)
  | _ => none

/-- the control character that a letter after a backslash stands for -/
def controlOf? : Char → Option Nat
  | 'a' => some 7
  | 'b' => some 8
  | 't' => some 9
  | 'n' => some 10
  | 'v' => some 11
  | 'f' => some 12
  | 'r' => some 13
  | _ => none

/-- the place that a letter after a backslash stands for -/
def placeOf? (flags : List Flag) : Char → Option Anchor
  | 'A' => some .start
  | 'Z' => some .stop
  | 'b' => some (.edge false (.ascii ∈ flags))
  | 'B' => some (.edge true (.ascii ∈ flags))
  | _ => none

def isOctalDigit (c : Char) : Bool := '0' ≤ c && c ≤ '7'

def isHexDigit (c : Char) : Bool :=
  Text.isAsciiDigit c || ('a' ≤ c && c ≤ 'f') || ('A' ≤ c && c ≤ 'F')

def hexDigitValue (c : Char) : Nat :=
  if c ≤ '9' then c.toNat - 48 else if c ≤ 'F' then c.toNat - 55 else c.toNat - 87

def digitsIn (base : Nat) (ds : List Char) : Nat :=
  ds.foldl (fun n d => base * n + hexDigitValue d) 0

def lastCode : Nat := 0x10FFFF

/-- the greatest code that octal digits may give -/
def lastOctalCode : Nat := 0xFF

namespace Reading

/-- a code of `count` digits in base sixteen after a backslash and the letter `c` -/
def takeHexCode (c : Char) (count : Nat) : Reading Nat := do
  let ds ← takeChars isHexDigit count
  let shown := '\\' :: c :: ds
  if ds.length < count then failBack shown.length (.incompleteEscape shown)
  let code := digitsIn 16 ds
  if lastCode < code then failBack shown.length (.badEscape shown)
  return code

/-- the code of a character given by its name in braces -/
def takeNamedCode : Reading Nat := do
  if !(← accept '\x7b') then fail .noBrace
  let name ← takeName '\x7d' "character name"
  match Text.codeOfName? name with
  | some code => return code
  | none => failBack (name.length + 4) (.unknownCharacter name)

/-- a code in octal digits, of which `ds` were taken -/
def octalCode (ds : List Char) : Reading Nat := do
  let code := digitsIn 8 ds
  if lastOctalCode < code then failBack (ds.length + 1) (.octalEscape ('\\' :: ds))
  return code

/-- the code that starts with the letter `c`, if one does -/
def takeCode? (c : Char) : Reading (Option Nat) := do
  match c with
  | 'x' => return some (← takeHexCode c 2)
  | 'u' => return some (← takeHexCode c 4)
  | 'U' => return some (← takeHexCode c 8)
  | 'N' => return some (← takeNamedCode)
  | _ => return none

/-- a character that stands for itself after a backslash: no letter and no digit -/
def takeSelf (c : Char) : Reading Nat := do
  if Text.isAsciiLetter c || Text.isAsciiDigit c then failBack 2 (.badEscape ['\\', c])
  return c.toNat

/-- what a backslash and the character `c` stand for in a set -/
def takeMember (c : Char) : Reading SetMember := do
  match controlOf? c, classOf? c with
  | some code, _ => return .range code code
  | none, some m => return m
  | none, none =>
    match ← takeCode? c with
    | some code => return .range code code
    | none =>
      let code ←
        if isOctalDigit c then octalCode (c :: (← takeChars isOctalDigit 2)) else takeSelf c
      return .range code code

/-- the digits of the number of a group after the digit `c`, or of an octal code: whether it is a
code, and its digits -/
def takeNumber (c : Char) : Reading (Bool × List Char) := do
  if c = '0' then return (true, c :: (← takeChars isOctalDigit 2))
  match ← takeChars Text.isAsciiDigit 1 with
  | [d] =>
    if isOctalDigit c && isOctalDigit d then
      let third ← takeChars isOctalDigit 1
      return (!third.isEmpty, c :: d :: third)
    else return (false, [c, d])
  | _ => return (false, [c])

def takeAgain (cmp : Comparison) (ds : List Char) : Reading Pattern := do
  let n := digitsIn 10 ds
  if (← groupCount) < n then failBack ds.length (.unknownGroup n)
  if !(← isClosed n) then failBack (ds.length + 1) .groupStillOpen
  checkBehind n
  return .again cmp n

/-- what a backslash and the character `c` stand for outside of sets -/
def takeItem (flags : List Flag) (c : Char) : Reading Item := do
  let cmp := comparisonOf flags
  let single (code : Nat) : Item := ⟨.other, .one (.single cmp code)⟩
  match placeOf? flags c, classOf? c, controlOf? c with
  | some a, _, _ => return ⟨.anchor, .anchor a⟩
  | none, some m, _ => return ⟨.other, .one ⟨false, [m], cmp⟩⟩
  | none, none, some code => return single code
  | none, none, none =>
    match ← takeCode? c with
    | some code => return single code
    | none =>
      if Text.isAsciiDigit c then
        let (isCode, ds) ← takeNumber c
        if isCode then return single (← octalCode ds)
        else return ⟨.other, ← takeAgain cmp ds⟩
      else return single (← takeSelf c)

/-! ## sets -/

def memberOf : Token → Reading SetMember
  | .plain c => return .range c.toNat c.toNat
  | .escaped c => takeMember c

/-- the range between two members, if they are characters in order -/
def rangeOf? : SetMember → SetMember → Option SetMember
  | .range a _, .range b _ => if a ≤ b then some (.range a b) else none
  | _, _ => none

/-- the members of a set up to its closing bracket, which may be the first member; `opened`
characters were left when the set was opened -/
def takeMembers (opened : Nat) : (fuel : Nat) → (first : Bool) → Reading (List SetMember)
  | 0, _ => return []
  | fuel + 1, first => do
    match ← take with
    | none => failAt opened .openSet
    | some t =>
      if !first && t = .plain ']' then return []
      let a ← memberOf t
      if ← accept '-' then
        match ← take with
        | none => failAt opened .openSet
        | some (.plain ']') => return [a, .range '-'.toNat '-'.toNat]
        | some u =>
          let b ← memberOf u
          match rangeOf? a b with
          | none =>
            failBack (t.chars.length + 1 + u.chars.length) (.badRange t.chars u.chars)
          | some r => return r :: (← takeMembers opened fuel false)
      else return a :: (← takeMembers opened fuel false)

def takeSet (flags : List Flag) : Reading Pattern := do
  let opened := (← spanLeft) + 1
  let negated ← accept '^'
  let members ← takeMembers opened ((← get).left.length + 1) true
  return .one ⟨negated, members, comparisonOf flags⟩

end Reading

end CircuitBench.Pattern
