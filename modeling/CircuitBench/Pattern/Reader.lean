import CircuitBench.Decimal.Whole
import CircuitBench.Pattern.Escape
import CircuitBench.Text.Identifier

/-!
# Reading text patterns

The written form of patterns: `.`, `[...]`, `^`, `$`, groups `(...)`, `|` between alternatives and
the repetitions `*`, `+`, `?` and `{m,n}`, which a further `?` makes lazy and a further `+`
possessive.  A group that starts with `(?` is of another kind: with a name, without a number, a look
ahead or behind, a choice, a comment, or flags.

`Pattern.parse` reads a whole pattern.
-/

namespace CircuitBench.Pattern

/-! ## repetitions -/

/-- a repetition is bounded by numbers below this one -/
def timesLimit : Nat := 4294967295

namespace Reading

/-- the number that digits write, if there are any -/
def countOf? (ds : List Char) : Option Nat := if ds.isEmpty then none else some (digitsIn 10 ds)

/-- the numbers in braces after the opening brace; `none` if the brace stands for itself, and then
nothing is taken -/
def takeBounds? : Reading (Option (Nat × Option Nat)) := do
  let before ← get
  let opened ← spanLeft
  if before.left.head? = some (.plain '\x7d') then return none
  let count := before.left.length
  let least ← takeChars Text.isAsciiDigit count
  let most ← if ← accept ',' then takeChars Text.isAsciiDigit count else pure least
  if !(← accept '\x7d') then
    set before
    return none
  let least := (countOf? least).getD 0
  if timesLimit ≤ least then throw (.whole .tooOften)
  match countOf? most with
  | none => return some (least, none)
  | some most =>
    if timesLimit ≤ most then throw (.whole .tooOften)
    if most < least then failAt opened .repeatsReversed
    return some (least, some most)

/-- the numbers of a repetition that starts with `c`; `none` if `c` stands for itself -/
def takeTimes? : Char → Reading (Option (Nat × Option Nat))
  | '*' => return some (0, none)
  | '+' => return some (1, none)
  | '?' => return some (0, some 1)
  | _ => takeBounds?

def takeManner : Reading Manner := do
  if ← accept '?' then return .lazy
  if ← accept '+' then return .possessive
  return .greedy

/-- the items with the last one repeated, or with `c` added if it starts no repetition -/
def takeRepetition (flags : List Flag) (c : Char) (items : List Item) : Reading (List Item) := do
  let opened := (← spanLeft) + 1
  match ← takeTimes? c with
  | none => return ⟨.other, .one (.single (comparisonOf flags) c.toNat)⟩ :: items
  | some (least, most) =>
    match items with
    | [] => failAt opened .nothingToRepeat
    | ⟨.anchor, _⟩ :: _ => failAt opened .nothingToRepeat
    | ⟨.repeated, _⟩ :: _ => failAt opened .multipleRepeat
    | ⟨.other, p⟩ :: items => return ⟨.repeated, .times (← takeManner) least most p⟩ :: items

/-! ## groups -/

inductive Wrap where
  | plain
  | once
  | keep (n : Nat)
  | ahead (negated : Bool)
  /-- whether it lies in no other look-behind -/
  | behind (negated outermost : Bool)

inductive Opening where
  /-- a comment, or flags of the whole pattern -/
  | nothing
  | item (item : Item)
  /-- alternatives -/
  | group (wrap : Wrap) (flags : List Flag)
  /-- one or two patterns for whether the group `n` has a text -/
  | choice (n : Nat)

def groupLimit : Nat := 1073741823

def namedGroup (name : List Char) : Reading Nat := do
  match (← get).names.lookup name with
  | some n => return n
  | none => failBack (name.length + 1) (.unknownGroupName name)

def checkName (name : List Char) : Reading Unit := do
  if !Text.isIdentifier name then failBack (name.length + 1) (.badGroupName name)

/-- `(?P<name>...)` and `(?P=name)`, after the letter -/
def takeNamed (flags : List Flag) : Reading Opening := do
  if ← accept '<' then
    let name ← takeName '>' "group name"
    checkName name
    return .group (.keep (← openGroup (some name))) flags
  else if ← accept '=' then
    let name ← takeName ')' "group name"
    checkName name
    let n ← namedGroup name
    if !(← isClosed n) then failBack (name.length + 1) .groupStillOpen
    checkBehind n
    return .item ⟨.other, .again (comparisonOf flags) n⟩
  else
    match ← take with
    | none => fail .unexpectedEnd
    | some t => failBack (t.chars.length + 2) (.unknownExtension ('P' :: t.chars))

/-- a comment up to its closing parenthesis; `opened` characters were left when it was opened -/
def skipComment (opened : Nat) : Reading Unit := do
  let s ← get
  match s.left.dropWhile (· ≠ .plain ')') with
  | [] => failAt opened .openComment
  | _ :: rest => set { s with left := rest }

/-- `(?<=...)` and `(?<!...)`, after the first mark -/
def takeBehind (flags : List Flag) : Reading Opening := do
  let negated ←
    match ← take with
    | some (.plain '=') => pure false
    | some (.plain '!') => pure true
    | none => fail .unexpectedEnd
    | some t => failBack (t.chars.length + 2) (.unknownExtension ('<' :: t.chars))
  let outermost := (← get).behind.isNone
  if outermost then
    let first := (← groupCount) + 1
    modify fun s => { s with behind := some first }
  return .group (.behind negated outermost) flags

/-- the group that a choice asks for, by name or by number -/
def takeChoice : Reading Opening := do
  let name ← takeName ')' "group name"
  let back := name.length + 1
  let n ←
    if Text.isIdentifier name then namedGroup name
    else
      match Decimal.readWhole (String.ofList name) with
      | .error _ => failBack back (.badGroupName name)
      | .ok n =>
        if n < 0 then failBack back (.badGroupName name)
        if n = 0 then failBack back .badGroupNumber
        let n := n.toNat
        if groupLimit ≤ n then failBack back (.unknownGroup n)
        let left := (← spanLeft) + back
        modify fun s => { s with asked := s.asked ++ [(n, left)] }
        pure n
  checkBehind n
  return .choice n

/-- what follows an opening parenthesis, with `opened` characters left before it; flags for the
whole pattern may stand only at its beginning (`atStart`) -/
def takeOpening (flags : List Flag) (atStart : Bool) (opened : Nat) : Reading Opening := do
  if !(← accept '?') then return .group (.keep (← openGroup none)) flags
  match ← take with
  | none => fail .unexpectedEnd
  | some (.plain 'P') => takeNamed flags
  | some (.plain ':') => return .group .plain flags
  | some (.plain '#') =>
    skipComment opened
    return .nothing
  | some (.plain '=') => return .group (.ahead false) flags
  | some (.plain '!') => return .group (.ahead true) flags
  | some (.plain '<') => takeBehind flags
  | some (.plain '(') => takeChoice
  | some (.plain '>') => return .group .once flags
  | some t =>
    if t = .plain '-' || (Flag.ofToken? t).isSome then
      match ← takeFlags t with
      | some (on, off) => return .group .plain (Flag.combine flags on off)
      | none =>
        if !atStart then failAt opened .lateFlags
        return .nothing
    else failBack (t.chars.length + 1) (.unknownExtension t.chars)

def wrapped (wrap : Wrap) (p : Pattern) : Reading Pattern := do
  match wrap with
  | .plain => return p
  | .once => return .once p
  | .keep n =>
    closeGroup n p
    return .group n p
  | .ahead negated => return .ahead negated p
  | .behind negated outermost =>
    if outermost then modify fun s => { s with behind := none }
    let w ← widthOf p
    return .behind negated w.least w.most p

/-! ## sequences and alternatives -/

/-- the characters that are skipped between items if blanks and comments are -/
def isSkipped (c : Char) : Bool := c == ' ' || (9 ≤ c.toNat && c.toNat ≤ 13)

def skipLine : Reading Unit :=
  modify fun s => { s with left := (s.left.dropWhile (· ≠ .plain '\n')).tail }

/-- the items one after the other, the last one given first -/
def sequence (items : List Item) : Pattern :=
  items.foldl (fun p item => .seq item.pattern p) .empty

/-- a closing parenthesis for the one with `opened` characters left before it -/
def close (opened : Nat) : Reading Unit := do
  if !(← accept ')') then failAt opened .openGroup

/-- the item for a character that stands for nothing but one character or place -/
def plainItem (flags : List Flag) (c : Char) : Item :=
  match c with
  | '.' => ⟨.other, .one (if .dotAll ∈ flags then .everything else .inLine)⟩
  | '^' => ⟨.anchor, .anchor (if .multiline ∈ flags then .lineStart else .start)⟩
  | '$' => ⟨.anchor, .anchor (if .multiline ∈ flags then .lineFinish else .finish)⟩
  | c => ⟨.other, .one (.single (comparisonOf flags) c.toNat)⟩

mutual

/-- alternatives up to a closing parenthesis or the end; in the whole pattern (`top`) the flags are
those that it has set, which it may do in the first alternative -/
def takeAlternatives : (fuel : Nat) → List Flag → (top first : Bool) → Reading Pattern
  | 0, _, _, _ => return .empty
  | fuel + 1, flags, top, first => do
    let p ← takeSequence fuel flags (top && first) []
    if ← accept '|' then
      let s ← get
      let flags := if top then s.flags else flags
      return .alt p (← takeAlternatives fuel flags top false)
    else return p

/-- items up to a bar, a closing parenthesis or the end; `items` are those before, the last one
first -/
def takeSequence : (fuel : Nat) → List Flag → (atStart : Bool) → List Item → Reading Pattern
  | 0, _, _, items => return sequence items
  | fuel + 1, flags, atStart, items => do
    match ← peek with
    | none => return sequence items
    | some (.plain '|') => return sequence items
    | some (.plain ')') => return sequence items
    | some (.escaped c) =>
      discard take
      takeSequence fuel flags atStart ((← takeItem flags c) :: items)
    | some (.plain c) =>
      discard take
      if .verbose ∈ flags && isSkipped c then takeSequence fuel flags atStart items
      else if .verbose ∈ flags && c = '#' then
        skipLine
        takeSequence fuel flags atStart items
      else
        match c with
        | '[' => takeSequence fuel flags atStart (⟨.other, ← takeSet flags⟩ :: items)
        | '*' | '+' | '?' | '\x7b' =>
          takeSequence fuel flags atStart (← takeRepetition flags c items)
        | '(' =>
          let opened := (← spanLeft) + 1
          match ← takeOpening flags (atStart && items.isEmpty) opened with
          | .nothing =>
            let s ← get
            let flags := if atStart then s.flags else flags
            takeSequence fuel flags atStart items
          | .item item => takeSequence fuel flags atStart (item :: items)
          | .group wrap inner =>
            let p ← takeAlternatives fuel inner false false
            close opened
            takeSequence fuel flags atStart (⟨.other, ← wrapped wrap p⟩ :: items)
          | .choice n =>
            let yes ← takeSequence fuel flags false []
            let no ←
              if ← accept '|' then
                let no ← takeSequence fuel flags false []
                if (← peek) = some (.plain '|') then fail .threeBranches
                pure no
              else pure .empty
            close opened
            takeSequence fuel flags atStart (⟨.other, .ifGroup n yes no⟩ :: items)
        | c => takeSequence fuel flags atStart (plainItem flags c :: items)

end

def takePattern : Reading Pattern := do
  let p ← takeAlternatives (4 * (← get).left.length + 4) [] true true
  let s ← get
  if .ascii ∈ s.flags && .unicode ∈ s.flags then throw (.whole .scripts)
  if !s.left.isEmpty then fail .strayClose
  match s.asked.find? fun a => s.widths.length < a.1 with
  | some (n, left) => failAt left (.unknownGroup n)
  | none => return p

end Reading

/-! ## whole patterns -/

/-- how many characters a look-behind may go back -/
def behindLimit : Nat := 4294967295

/-- a look-behind goes back a fixed number of characters, and a template has no repetitions -/
def check (template : Bool) : Pattern → Except Fault Unit
  | .seq p q => do p.check template; q.check template
  | .alt p q => do p.check template; q.check template
  | .times manner _ _ p => do
    if template then throw (.repetitionInTemplate manner)
    p.check template
  | .ahead _ p => p.check template
  | .behind _ least most p => do
    if behindLimit < least then throw .lookBehindTooWide
    if most ≠ some least then throw .lookBehindVaries
    p.check template
  | .once p => p.check template
  | .group _ p => p.check template
  | .ifGroup _ p q => do p.check template; q.check template
  | _ => return ()

def parse (source : String) : Except Fault Pattern :=
  let cs := source.toList
  match tokens? cs with
  | none => .error (.located .openEscape cs (cs.length - 1))
  | some ts =>
    match Reading.takePattern.run ⟨ts, [], [], [], none, []⟩ with
    | .error (.located problem left) => .error (.located problem cs (cs.length - left))
    | .error (.whole fault) => .error fault
    | .ok (p, s) => do
      p.check (.template ∈ s.flags)
      return p

end CircuitBench.Pattern
