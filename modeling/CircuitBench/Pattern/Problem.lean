import CircuitBench.Pattern.Basic
import CircuitBench.Text.Quoted

/-!
# What is wrong with a written pattern

Most problems have a place in the pattern.  Those that show only when the whole pattern is known
have none.
-/

namespace CircuitBench.Pattern

/-- a problem at a place; `written` is a piece of the pattern -/
inductive Problem where
  | nothingToRepeat
  | multipleRepeat
  | repeatsReversed
  | openGroup
  | openComment
  | strayClose
  | openSet
  | badRange (first last : List Char)
  | unexpectedEnd
  | unknownExtension (written : List Char)
  | openEscape
  | badEscape (written : List Char)
  | incompleteEscape (written : List Char)
  | octalEscape (written : List Char)
  | noBrace
  | unknownCharacter (name : List Char)
  /-- a name is left out -/
  | noName (what : String)
  /-- a name without its closing character -/
  | openName (closing : Char)
  | badGroupName (name : List Char)
  | badGroupNumber
  | unknownGroupName (name : List Char)
  | groupNamedTwice (name : List Char) (later earlier : Nat)
  | unknownGroup (n : Nat)
  | groupStillOpen
  | groupInSameLookBehind
  | threeBranches
  | lateFlags
  | localeFlag
  | scriptFlags
  | scriptFlagOff
  | noFlagEnd
  | noFlag
  | noColon
  | unknownFlag
  | wholeFlagOn
  | wholeFlagOff
  | flagOnAndOff
  deriving DecidableEq, Repr

def Problem.message : Problem → String
  | .nothingToRepeat => "nothing to repeat"
  | .multipleRepeat => "multiple repeat"
  | .repeatsReversed => "min repeat greater than max repeat"
  | .openGroup => "missing ), unterminated subpattern"
  | .openComment => "missing ), unterminated comment"
  | .strayClose => "unbalanced parenthesis"
  | .openSet => "unterminated character set"
  | .badRange first last =>
    "bad character range " ++ String.ofList first ++ "-" ++ String.ofList last
  | .unexpectedEnd => "unexpected end of pattern"
  | .unknownExtension written => "unknown extension ?" ++ String.ofList written
  | .openEscape => "bad escape (end of pattern)"
  | .badEscape written => "bad escape " ++ String.ofList written
  | .incompleteEscape written => "incomplete escape " ++ String.ofList written
  | .octalEscape written =>
    "octal escape value " ++ String.ofList written ++ " outside of range 0-0o377"
  | .noBrace => "missing \x7b"
  | .unknownCharacter name => "undefined character name " ++ Text.quote (String.ofList name)
  | .noName what => "missing " ++ what
  | .openName closing => "missing " ++ String.singleton closing ++ ", unterminated name"
  | .badGroupName name => "bad character in group name " ++ Text.quote (String.ofList name)
  | .badGroupNumber => "bad group number"
  | .unknownGroupName name => "unknown group name " ++ Text.quote (String.ofList name)
  | .groupNamedTwice name later earlier =>
    "redefinition of group name " ++ Text.quote (String.ofList name) ++ " as group " ++
      toString later ++ "; was group " ++ toString earlier
  | .unknownGroup n => "invalid group reference " ++ toString n
  | .groupStillOpen => "cannot refer to an open group"
  | .groupInSameLookBehind =>
    "cannot refer to group defined in the same lookbehind subpattern"
  | .threeBranches => "conditional backref with more than two branches"
  | .lateFlags => "global flags not at the start of the expression"
  | .localeFlag => "bad inline flags: cannot use 'L' flag with a str pattern"
  | .scriptFlags => "bad inline flags: flags 'a', 'u' and 'L' are incompatible"
  | .scriptFlagOff => "bad inline flags: cannot turn off flags 'a', 'u' and 'L'"
  | .noFlagEnd => "missing -, : or )"
  | .noFlag => "missing flag"
  | .noColon => "missing :"
  | .unknownFlag => "unknown flag"
  | .wholeFlagOn => "bad inline flags: cannot turn on global flag"
  | .wholeFlagOff => "bad inline flags: cannot turn off global flag"
  | .flagOnAndOff => "bad inline flags: flag turned on and off"

inductive Fault where
  /-- a problem of the pattern `source` at a place -/
  | located (problem : Problem) (source : List Char) (place : Nat)
  /-- a number of times that is too large -/
  | tooOften
  /-- the letters of ASCII and those of all scripts are both asked for -/
  | scripts
  | lookBehindTooWide
  | lookBehindVaries
  /-- a template has no repetitions -/
  | repetitionInTemplate (manner : Manner)
  deriving DecidableEq, Repr

/-- the place is also given by line and column when the pattern has several lines -/
def Fault.message : Fault → String
  | .located problem source place =>
    let before := source.take place
    let text := problem.message ++ " at position " ++ toString place
    if '\n' ∈ source then
      let line := before.count '\n' + 1
      let column := (before.reverse.takeWhile (· ≠ '\n')).length + 1
      text ++ " (line " ++ toString line ++ ", column " ++ toString column ++ ")"
    else text
  | .tooOften => "the repetition number is too large"
  | .scripts => "ASCII and UNICODE flags are incompatible"
  | .lookBehindTooWide => "looks too much behind"
  | .lookBehindVaries => "look-behind requires fixed-width pattern"
  | .repetitionInTemplate manner =>
    "internal: unsupported template operator " ++
      match manner with
      | .greedy => "MAX_REPEAT"
      | .lazy => "MIN_REPEAT"
      | .possessive => "POSSESSIVE_REPEAT"

end CircuitBench.Pattern
