import CircuitBench.Decimal.Real
import CircuitBench.Decimal.Whole
import CircuitBench.Fault
import CircuitBench.Given

/-!
# Command line options

How the words of a command line are read as options.

* Every word is first put into a class (`classify`): the name of an option, the name of an option
  with its value joined to it, a value, or an unknown option.  A long name may be cut short as long
  as it is the beginning of one name only.  A negative number is a value, and so is every word
  after `--`.
* Then options take their values (`consume`).  A flag takes none; several flags may be joined in one
  word, and the last name in it may be that of an option with a value.
* A joined value `--` leaves its option blank.
* Words that no option takes are left over, which is a fault.
-/

namespace CircuitBench.Options

inductive Kind where
  /-- nothing, and it ends the program -/
  | help
  /-- nothing -/
  | flag
  | text
  | whole
  | real
  /-- a text, read as whether it is not empty -/
  | truth
  deriving DecidableEq, Repr

def Kind.takesValue : Kind → Bool
  | .help => false
  | .flag => false
  | _ => true

/-- an option with all its names, the short ones first -/
structure Spec where
  names : List String
  kind : Kind
  deriving DecidableEq, Repr

def Spec.title (s : Spec) : String := Text.joinWith "/" s.names

/-- the name by which the value of an option is found -/
def Spec.key (s : Spec) : String := s.names.getLastD ""

def helpSpec : Spec := ⟨["-h", "--help"], .help⟩

inductive Value where
  | text (s : String)
  | whole (n : Int)
  | real (x : Float)
  | truth (b : Bool)
  | blank

/-! ## classes of words -/

inductive Word where
  | value
  /-- the word `--` -/
  | divider
  /-- an option by its full name, with what is joined to it -/
  | option (spec : Spec) (name : String) (joined : Option (List Char))
  | unknown
  deriving DecidableEq, Repr

def find? (specs : List Spec) (name : String) : Option Spec :=
  specs.find? fun s => s.names.contains name

/-- all names with their options, in the order in which they are given -/
def allNames (specs : List Spec) : List (String × Spec) :=
  specs.flatMap fun s => s.names.map fun name => (name, s)

/-- the parts before and after the first equals sign, if there is one -/
def cutEquals? (cs : List Char) : Option (List Char × List Char) :=
  match cs.dropWhile (· ≠ '=') with
  | [] => none
  | _ :: rest => some (cs.takeWhile (· ≠ '='), rest)

/-- the options that a word can stand for without being the name of one: a long word is the
beginning of their names; a short one is, or starts with a short name and goes on with its value -/
def candidates (specs : List Spec) (cs : List Char) : List (Spec × String × Option (List Char)) :=
  match cs with
  | '-' :: '-' :: _ =>
    let (start, joined) :=
      match cutEquals? cs with
      | some (start, value) => (start, some value)
      | none => (cs, none)
    ((allNames specs).filter fun (name, _) => start.isPrefixOf name.toList).map
      fun (name, s) => (s, name, joined)
  | _ =>
    (allNames specs).filterMap fun (name, s) =>
      if name.toList = cs.take 2 then some (s, name, some (cs.drop 2))
      else if cs.isPrefixOf name.toList then some (s, name, none)
      else none

/-- the digits at the beginning are followed by the end, or by a line feed that is the end -/
def digitsToEnd (cs : List Char) : Bool :=
  let rest := cs.dropWhile Text.isDigit
  (cs.takeWhile Text.isDigit ≠ []) && (rest = [] || rest = ['\n'])

/-- a minus sign and a number with digits at its end -/
def isNegativeNumber : List Char → Bool
  | '-' :: cs =>
    digitsToEnd cs ||
      (match cs.dropWhile Text.isDigit with
        | '.' :: rest => digitsToEnd rest
        | _ => false)
  | _ => false

def classify (specs : List Spec) (word : String) : Except UsageFault Word :=
  let cs := word.toList
  if cs.head? ≠ some '-' then .ok .value
  else
    match find? specs word with
    | some s => .ok (.option s word none)
    | none =>
      if cs.length = 1 then .ok .value
      else
        let named? := (cutEquals? cs).bind fun (name, value) =>
          (find? specs (String.ofList name)).map fun s =>
            Word.option s (String.ofList name) (some value)
        match named?, candidates specs cs with
        | some w, _ => .ok w
        | none, [(s, name, joined)] => .ok (.option s name joined)
        | none, [] =>
          if isNegativeNumber cs || cs.contains ' ' then .ok .value else .ok .unknown
        | none, many => .error (.ambiguous word (many.map fun c => c.2.1))

/-- the classes of all words; everything after the divider is a value -/
def classifyAll (specs : List Spec) : List String → Except UsageFault (List (String × Word))
  | [] => .ok []
  | word :: words =>
    if word = "--" then .ok ((word, .divider) :: words.map fun w => (w, .value))
    else do
      let w ← classify specs word
      return (word, w) :: (← classifyAll specs words)

/-! ## values -/

/-- what is in a word: flags, then an option with a value, which may be joined to it -/
structure Group where
  flags : List Spec
  last : Option (Spec × Option String)

/-- take apart what is joined to a name: the value of its option or, after a short flag, further
short names -/
def takeJoined (specs : List Spec) : List Char → (spec : Spec) → (isLong : Bool) →
    Except UsageFault Group
  | [], spec, _ =>
    if spec.kind.takesValue then .ok ⟨[], some (spec, some "")⟩
    else .error (.ignoredValue spec.title "")
  | c :: rest, spec, isLong =>
    if spec.kind.takesValue then .ok ⟨[], some (spec, some (String.ofList (c :: rest)))⟩
    else if isLong then .error (.ignoredValue spec.title (String.ofList (c :: rest)))
    else
      match find? specs (String.ofList ['-', c]) with
      | none => .error (.ignoredValue spec.title (String.ofList (c :: rest)))
      | some next =>
        if rest.isEmpty then
          .ok (if next.kind.takesValue then ⟨[spec], some (next, none)⟩ else ⟨[spec, next], none⟩)
        else do
          let group ← takeJoined specs rest next false
          return { group with flags := spec :: group.flags }

def takeApart (specs : List Spec) (spec : Spec) (isLong : Bool) :
    (joined : Option (List Char)) → Except UsageFault Group
  | none => .ok (if spec.kind.takesValue then ⟨[], some (spec, none)⟩ else ⟨[spec], none⟩)
  | some cs => takeJoined specs cs spec isLong

/-- the joined value that leaves an option blank -/
def blankWord : String := "--"

def convert (spec : Spec) (s : String) : Except UsageFault Value :=
  if s = blankWord then .ok .blank
  else match spec.kind with
  | .whole =>
    match Decimal.readWhole s with
    | .ok n => .ok (.whole n)
    | .error _ => .error (.notWhole spec.title s)
  | .real =>
    match Decimal.readReal? s with
    | some x => .ok (.real x)
    | none => .error (.notReal spec.title s)
  | .truth => .ok (.truth !s.isEmpty)
  | _ => .ok (.text s)

abbrev Assignments := List (String × Value)

/-- why the reading of options stops: a fault of usage, or a question for help -/
inductive Stop where
  | usage (fault : UsageFault)
  | help

def setFlags : List Spec → Except Stop Assignments
  | [] => .ok []
  | s :: flags =>
    if s.kind = .help then .error .help
    else do return (s.key, .truth true) :: (← setFlags flags)

def setValue (spec : Spec) (s : String) : Except Stop Assignments :=
  match convert spec s with
  | .ok v => .ok [(spec.key, v)]
  | .error fault => .error (.usage fault)

/-- give options their values; the words that nothing takes are left over -/
def consume (specs : List Spec) : List (String × Word) → Except Stop (Assignments × List String)
  | [] => .ok ([], [])
  | (_, .option spec name joined) :: rest => do
    let group ← (takeApart specs spec (name.startsWith "--") joined).mapError .usage
    match group.last, rest with
    | none, rest =>
      let flags ← setFlags group.flags
      let (more, left) ← consume specs rest
      return (flags ++ more, left)
    | some (s, some v), rest =>
      let flags ← setFlags group.flags
      let set ← setValue s v
      let (more, left) ← consume specs rest
      return (flags ++ set ++ more, left)
    | some (s, none), (v, .value) :: rest =>
      let flags ← setFlags group.flags
      let set ← setValue s v
      let (more, left) ← consume specs rest
      return (flags ++ set ++ more, left)
    | some (s, none), _ => throw (.usage (.expectedValue s.title))
  | (word, _) :: rest => do
    let (set, left) ← consume specs rest
    return (set, word :: left)

def read (specs : List Spec) (words : List String) : Except Stop Assignments := do
  let specs := helpSpec :: specs
  let classified ← (classifyAll specs words).mapError .usage
  let (set, left) ← consume specs classified
  if left.isEmpty then return set else throw (.usage (.unrecognized left))

def Stop.toFault (program : String) : Stop → Fault
  | .usage fault => .usage program fault
  | .help => .exit 0

/-! ## looking up -/

/-- the value of an option: the last one that was set -/
def Assignments.value? (a : Assignments) (key : String) : Option Value := a.reverse.lookup key

def Assignments.text? (a : Assignments) (key : String) : Option (Given String) :=
  match a.value? key with
  | some (.text s) => some (.value s)
  | some .blank => some .blank
  | _ => none

def Assignments.whole? (a : Assignments) (key : String) : Option (Given Int) :=
  match a.value? key with
  | some (.whole n) => some (.value n)
  | some .blank => some .blank
  | _ => none

def Assignments.real? (a : Assignments) (key : String) : Option (Given Float) :=
  match a.value? key with
  | some (.real x) => some (.value x)
  | some .blank => some .blank
  | _ => none

def Assignments.isSet (a : Assignments) (key : String) : Bool :=
  match a.value? key with
  | some (.truth b) => b
  | _ => false

end CircuitBench.Options
