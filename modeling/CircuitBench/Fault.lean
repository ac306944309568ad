import CircuitBench.Circuit.HiddenString
import CircuitBench.Json.Reader
import CircuitBench.Pattern.Reader
import CircuitBench.Tree.Basic

/-!
# Why a job fails

`Fault` lists every cause for which a job ends without a result.  `Fault.words` says it in words,
and `Fault.message` too, with the lone halves that a shown value may have.
-/

namespace CircuitBench

/-- a mistake in the words of a command line -/
inductive UsageFault where
  | ambiguous (word : String) (candidates : List String)
  | expectedValue (option : String)
  | ignoredValue (option value : String)
  | notWhole (option value : String)
  | notReal (option value : String)
  | unrecognized (words : List String)
  deriving DecidableEq, Repr

def UsageFault.message : UsageFault → String
  | .ambiguous word candidates =>
    "ambiguous option: " ++ word ++ " could match " ++ Text.joinWith ", " candidates
  | .expectedValue option => "argument " ++ option ++ ": expected one argument"
  | .ignoredValue option value =>
    "argument " ++ option ++ ": ignored explicit argument " ++ Text.quote value
  | .notWhole option value =>
    "argument " ++ option ++ ": invalid int value: " ++ Text.quote value
  | .notReal option value =>
    "argument " ++ option ++ ": invalid float value: " ++ Text.quote value
  | .unrecognized words => "unrecognized arguments: " ++ Text.joinWith " " words

/-- what cannot be done with a value, because it is of the wrong kind -/
inductive KindFault where
  | arithmetic (sign left right : String)
  /-- a comparison by size -/
  | order (left right : String)
  /-- something joined to a text -/
  | joinedToText (kind : String)
  /-- something joined to a list -/
  | joinedToList (kind : String)
  /-- a number of times -/
  | count (kind : String)
  | path (kind : String)
  /-- a field of a value that has none -/
  | subscript (kind : String)
  | seed
  deriving DecidableEq, Repr

def KindFault.message : KindFault → String
  | .arithmetic sign left right =>
    "unsupported operand type(s) for " ++ sign ++ ": '" ++ left ++ "' and '" ++ right ++ "'"
  | .order left right =>
    "'<=' not supported between instances of '" ++ left ++ "' and '" ++ right ++ "'"
  | .joinedToText kind => "can only concatenate str (not \"" ++ kind ++ "\") to str"
  | .joinedToList kind => "can only concatenate list (not \"" ++ kind ++ "\") to list"
  | .count kind => "'" ++ kind ++ "' object cannot be interpreted as an integer"
  | .path kind => "stat: path should be string, bytes, os.PathLike or integer, not " ++ kind
  | .subscript kind => "'" ++ kind ++ "' object is not subscriptable"
  | .seed => "The only supported seed types are: None,\nint, float, str, bytes, and bytearray."

inductive Fault where
  /-- a path cannot be used -/
  | path (path : String) (fault : Tree.Fault)
  /-- a file is no text -/
  | encoding (fault : Text.Utf8.Fault)
  | pattern (fault : Pattern.Fault)
  | json (fault : Json.ParseFault)
  | whole (fault : Json.WholeFault)
  | number (fault : Number.Fault)
  | kind (fault : KindFault)
  /-- a question that a value of this kind does not answer -/
  | noMember (kind name : String)
  | hiddenString (fault : HiddenString.Fault)
  /-- an output name that has its extension already names no file -/
  | unnamedOutput
  /-- a name that stands for nothing -/
  | undefinedName (name : String)
  /-- a random choice among `count` things, none of them -/
  | emptyChoice (count : Int)
  | noCircuitFile
  | unsupportedBackend
  | noAccount
  | accountLacks (setting : String)
  /-- a record lacks a field -/
  | noField (name : String)
  /-- a list has no such item -/
  | noItem
  /-- a row of `size` numbers has no such place -/
  | noPlace (index size : Nat)
  | noReferences (benchmark : String)
  | noReferenceFile (path : String)
  /-- the reference has no count for an outcome -/
  | outcomeMissing (outcome path : String)
  | countDiffers (count reference : Json)
  /-- a reference value that outcomes cannot be looked up in -/
  | noLookup (kind : String)
  | listLookup
  | textLookup
  | noDirectory (path : String)
  /-- a file name without a number of qubits -/
  | unnumberedFile (directory : String)
  /-- a file of the conformance suite has the wrong verdict -/
  | wrongVerdict (label : String)
  | negativeDimension
  | notFinite
  | divisionByZero
  /-- the toolkit failed -/
  | toolkit (kind message : String)
  /-- the toolkit was interrupted -/
  | interrupted (message : String)
  /-- a command line that cannot be read -/
  | usage (program : String) (fault : UsageFault)
  /-- the program ends at once, with a status -/
  | exit (status : Nat)

namespace Fault

def words : Fault → String
  | .path p fault => fault.message p
  | .encoding fault => fault.message
  | .pattern fault => fault.message
  | .json fault => fault.message
  | .whole fault => fault.message
  | .number fault => fault.message
  | .kind fault => fault.message
  | .noMember k name => "'" ++ k ++ "' object has no attribute '" ++ name ++ "'"
  | .hiddenString fault => fault.message
  | .unnamedOutput =>
    "cannot access local variable 'outfilename' where it is not associated with a value"
  | .undefinedName name => "name '" ++ name ++ "' is not defined"
  | .emptyChoice count =>
    "empty range for randrange() (0, " ++ toString count ++ ", " ++ toString count ++ ")"
  | .noCircuitFile => "No qasm file"
  | .unsupportedBackend => "only ibmqx or local simulators are supported"
  | .noAccount => "No module named 'Qconfig'"
  | .accountLacks setting => "module 'Qconfig' has no attribute '" ++ setting ++ "'"
  | .noField name => Text.quote name
  | .noItem => "list index out of range"
  | .noPlace index size =>
    "index " ++ toString index ++ " is out of bounds for axis 0 with size " ++ toString size
  | .noReferences benchmark => "Verification not support for " ++ benchmark
  | .noReferenceFile p => "Reference file not exist: " ++ p
  | .outcomeMissing outcome p => outcome ++ " not exist in " ++ p
  | .countDiffers count reference =>
    " Count is differ: " ++ count.displayText ++ " and " ++ reference.displayText
  | .noLookup k => "argument of type '" ++ k ++ "' is not iterable"
  | .listLookup => "list indices must be integers or slices, not str"
  | .textLookup => "string indices must be integers, not 'str'"
  | .noDirectory p => "Not find :" ++ p
  | .unnumberedFile directory => "Not find file:" ++ directory
  | .wrongVerdict label => label
  | .negativeDimension => "negative dimensions are not allowed"
  | .notFinite => "array must not contain infs or NaNs"
  | .divisionByZero => "division by zero"
  | .toolkit _ text => text
  | .interrupted text => text
  | .usage _ _ => "2"
  | .exit status => toString status

/-- the cause in words, shown values as they are -/
def message : Fault → Text.Wide
  | .countDiffers count reference =>
    .ofString " Count is differ: " ++ count.display ++ .ofString " and " ++ reference.display
  | fault => .ofString fault.words

/-- what is written on the error channel -/
def complaint? : Fault → Option String
  | .usage program fault => some (program ++ ": error: " ++ fault.message)
  | _ => none

end Fault

end CircuitBench
