import CircuitBench.Pattern.Problem

/-!
# The parts of a written pattern

A written pattern consists of characters, some with a backslash in front.  Readers of patterns take
these tokens one after the other and keep track of flags and groups; a problem is located by the
number of characters left when it is found.

* `tokens?`        the tokens of a text;
* `Progress`       what a reader has come to know;
* `Reading α`      a reader with a result or a failure.
-/

namespace CircuitBench.Pattern

/-- a character, or one with a backslash in front -/
inductive Token where
  | plain (c : Char)
  | escaped (c : Char)
  deriving DecidableEq, Repr

def Token.chars : Token → List Char
  | .plain c => [c]
  | .escaped c => ['\\', c]

/-- the tokens of a text, unless it ends with a backslash that has nothing after it -/
def tokens? : List Char → Option (List Token)
  | [] => some []
  | ['\\'] => none
  | '\\' :: c :: cs => (tokens? cs).map (.escaped c :: ·)
  | c :: cs => (tokens? cs).map (.plain c :: ·)

def written (ts : List Token) : List Char := ts.flatMap Token.chars

/-- tokens are read back from their text, unless one of them is a backslash on its own -/
theorem tokens?_written (ts : List Token) (h : .plain '\\' ∉ ts) :
    tokens? (written ts) = some ts := by
  induction ts with
  | nil => rfl
  | cons t ts ih =>
    obtain ⟨ht, hs⟩ := not_or.1 (fun m => h (List.mem_cons.2 m))
    have ih := ih hs
    cases t with
    | escaped c => simpa [written, Token.chars, tokens?] using ih
    | plain c =>
      have hc : c ≠ '\\' := fun e => ht (e ▸ rfl)
      simp only [written, Token.chars, List.flatMap_cons, List.singleton_append] at ih ⊢
      rw [tokens?]
      · simp [ih]
      · exact fun e => absurd e hc
      · exact fun _ _ e => absurd e hc

/-- what changes the meaning of a pattern or of a part of it -/
inductive Flag where
  | ignoreCase
  | locale
  /-- `^` and `$` stand for the ends of lines -/
  | multiline
  /-- `.` is any character -/
  | dotAll
  /-- blanks and comments are skipped -/
  | verbose
  | ascii
  | template
  | unicode
  deriving DecidableEq, Repr

def comparisonOf (flags : List Flag) : Comparison := ⟨.ignoreCase ∈ flags, .ascii ∈ flags⟩

structure Progress where
  left : List Token
  /-- the flags of the whole pattern -/
  flags : List Flag
  names : List (List Char × Nat)
  /-- the width of every group so far, `none` while it is open -/
  widths : List (Option Width)
  /-- inside a look-behind: the number of the first group that it opens -/
  behind : Option Nat
  /-- groups that are asked for by number, with the number of characters left there -/
  asked : List (Nat × Nat)

/-- why reading fails; `left` is the number of characters from the place on -/
inductive Failure where
  | located (problem : Problem) (left : Nat)
  | whole (fault : Fault)
  deriving DecidableEq, Repr

abbrev Reading := StateT Progress (Except Failure)

namespace Reading

def spanLeft : Reading Nat := return (written (← get).left).length

def failAt {α : Type} (left : Nat) (problem : Problem) : Reading α :=
  throw (.located problem left)

/-- a problem `back` characters before the next token -/
def failBack {α : Type} (back : Nat) (problem : Problem) : Reading α := do
  failAt ((← spanLeft) + back) problem

def fail {α : Type} (problem : Problem) : Reading α := failBack 0 problem

/-- the next token, which stays -/
def peek : Reading (Option Token) := return (← get).left.head?

def take : Reading (Option Token) := do
  let s ← get
  set { s with left := s.left.tail }
  return s.left.head?

/-- take the next token if it is `c` -/
def accept (c : Char) : Reading Bool := do
  if (← peek) = some (.plain c) then
    discard take
    return true
  else return false

/-- the characters of a class that come next, at most `count` of them -/
def takeChars (p : Char → Bool) : (count : Nat) → Reading (List Char)
  | 0 => return []
  | count + 1 => do
    match ← peek with
    | some (.plain c) =>
      if p c then
        discard take
        return c :: (← takeChars p count)
      else return []
    | _ => return []

/-- a name up to its closing character, which is taken too -/
def takeName (closing : Char) (what : String) : Reading (List Char) := do
  let s ← get
  let name := written (s.left.takeWhile (· ≠ .plain closing))
  let rest := s.left.dropWhile (· ≠ .plain closing)
  set { s with left := rest.tail }
  match name.isEmpty, rest.isEmpty with
  | true, true => fail (.noName what)
  | false, true => failBack name.length (.openName closing)
  | true, false => failBack 1 (.noName what)
  | false, false => return name

/-! ## groups -/

def groupCount : Reading Nat := return (← get).widths.length

def isClosed (n : Nat) : Reading Bool := do
  if n = 0 then return false
  return ((← get).widths[n - 1]?.getD none).isSome

def widthOf (p : Pattern) : Reading Width := do
  let widths := (← get).widths
  return p.width fun n => (widths[n - 1]?.getD none).getD (.exactly 0)

def openGroup (name : Option (List Char)) : Reading Nat := do
  let n := (← groupCount) + 1
  match name with
  | none => pure ()
  | some name =>
    match (← get).names.lookup name with
    | some m => failBack (name.length + 1) (.groupNamedTwice name n m)
    | none => modify fun s => { s with names := (name, n) :: s.names }
  modify fun s => { s with widths := s.widths ++ [none] }
  return n

def closeGroup (n : Nat) (p : Pattern) : Reading Unit := do
  let w ← widthOf p
  modify fun s => { s with widths := s.widths.set (n - 1) (some w) }

/-- a look-behind may only take up groups that were closed before it -/
def checkBehind (n : Nat) : Reading Unit := do
  match (← get).behind with
  | none => pure ()
  | some first =>
    if !(← isClosed n) then fail .groupStillOpen
    if first ≤ n then fail .groupInSameLookBehind

end Reading

end CircuitBench.Pattern
