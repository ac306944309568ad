import CircuitBench.Pattern.Token
import CircuitBench.Text.Letter

/-!
# Flags in patterns

`(?im)` at the beginning sets flags for the whole pattern, `(?im-s:...)` turns flags on and off for
a group.
-/

namespace CircuitBench.Pattern

namespace Flag

def ofChar? : Char → Option Flag
  | 'i' => some .ignoreCase
  | 'L' => some .locale
  | 'm' => some .multiline
  | 's' => some .dotAll
  | 'x' => some .verbose
  | 'a' => some .ascii
  | 't' => some .template
  | 'u' => some .unicode
  | _ => none

def ofToken? : Token → Option Flag
  | .plain c => ofChar? c
  | .escaped _ => none

/-- flags that say which letters there are; only one of them can be on -/
def isScript : Flag → Bool
  | .ascii => true
  | .unicode => true
  | .locale => true
  | _ => false

/-- the flags of a group, given those around it -/
def combine (flags on off : List Flag) : List Flag :=
  let kept := if on.any isScript then flags.filter (!·.isScript) else flags
  (on ++ kept).filter (· ∉ off)

end Flag

namespace Reading

/-- a token where a flag should be: an unknown one, or something else that is `missing` -/
def failFlag {α : Type} (missing : Problem) (t : Token) : Reading α :=
  failBack t.chars.length <|
    match t with
    | .plain c => if Text.isLetter c then .unknownFlag else missing
    | .escaped _ => missing

/-- flags to turn on, the next one being `flag`, and the character that ends them -/
def takeOn : (fuel : Nat) → Flag → List Flag → Reading (List Flag × Char)
  | 0, _, on => return (on, ')')
  | fuel + 1, flag, on => do
    if flag = .locale then fail .localeFlag
    let on := flag :: on
    if flag.isScript && on.any fun f => f.isScript && f ≠ flag then fail .scriptFlags
    match ← take with
    | none => fail .noFlagEnd
    | some (.plain ')') => return (on, ')')
    | some (.plain '-') => return (on, '-')
    | some (.plain ':') => return (on, ':')
    | some t =>
      match Flag.ofToken? t with
      | some flag => takeOn fuel flag on
      | none => failFlag .noFlagEnd t

/-- flags to turn off, the next one being `flag`, up to a colon -/
def takeOff : (fuel : Nat) → Flag → List Flag → Reading (List Flag)
  | 0, _, off => return off
  | fuel + 1, flag, off => do
    if flag.isScript then fail .scriptFlagOff
    let off := flag :: off
    match ← take with
    | none => fail .noColon
    | some (.plain ':') => return off
    | some t =>
      match Flag.ofToken? t with
      | some flag => takeOff fuel flag off
      | none => failFlag .noColon t

/-- the flags that start with `t`, to turn on and off in a group; `none` if they are for the whole
pattern, where they are set -/
def takeFlags (t : Token) : Reading (Option (List Flag × List Flag)) := do
  let fuel := (← get).left.length + 1
  let (on, ending) ←
    match Flag.ofToken? t with
    | some flag => takeOn fuel flag []
    | none => pure ([], '-')
  if ending = ')' then
    modify fun s => { s with flags := on ++ s.flags }
    return none
  if .template ∈ on then failBack 1 .wholeFlagOn
  let off ←
    if ending = '-' then
      match ← take with
      | none => fail .noFlag
      | some t =>
        match Flag.ofToken? t with
        | some flag => takeOff fuel flag []
        | none => failFlag .noFlag t
    else pure []
  if .template ∈ off then failBack 1 .wholeFlagOff
  if on.any (· ∈ off) then failBack 1 .flagOnAndOff
  return some (on, off)

end Reading

end CircuitBench.Pattern
