import CircuitBench.Conformance.Header
import CircuitBench.Session

/-!
# The conformance suite

The examples lie in directories, one for each category.  The toolkit must accept every example, but
those of the category `invalid` it must reject.

* `examplePath`    where an example lies;
* `accepts`        whether the toolkit accepts a file;
* `checkFile`      the report and the verdict for one file;
* `runSuite`       all examples, until the first wrong verdict.
-/

namespace CircuitBench.Conformance

/-- the directory that the examples are looked up from -/
def home : String := "test"

def examplePath (category name : String) : String :=
  Path.join (Path.join (Path.join home "../examples") category) (name ++ ".qasm")

def examplesDir : String := Path.join (Path.join home "..") "examples"

def defaultPrecision : Int := 15

/-- whether the toolkit accepts the program at a path; `verbose` prints why not -/
def accepts (path : String) (verbose : Bool) (precision : Int) : Job Bool := do
  Job.callAll [.openText path, .parse]
  match (← get).rejections.lookup path with
  | none =>
    Job.call (.print precision)
    return true
  | some (.invalid message) =>
    if verbose then Job.printText ("Error:\n" ++ message ++ "\n")
    return false
  | some (.broken kind message) => throw (.toolkit kind message)

/-- files are read in blocks of this many bytes -/
def blockSize : Nat := 8192

/-- report a file and check the verdict: it must be accepted, or rejected if it is `invalid` -/
def checkFile (path : String) (verbose invalid : Bool) : Job Unit := do
  let text ← Job.readText path (Text.Utf8.decodeBlocks blockSize)
  let line := label path (header text)
  Job.printLine line
  if (← accepts path verbose defaultPrecision) == invalid then throw (.wrongVerdict line)

def invalidCategory : String := "invalid"

/-- the name of an example without the extension: five characters are cut from a file name that
ends in `qasm`, or the last one if there are only these four -/
def exampleName? (file : String) : Option String :=
  let cs := file.toList
  if "qasm".toList.isSuffixOf cs then
    some (String.ofList (if cs.length < 5 then cs.dropLast else cs.take (cs.length - 5)))
  else none

def checkFiles (category : String) (verbose : Bool) : List String → Job Unit
  | [] => return
  | file :: files => do
    match exampleName? file with
    | none => checkFiles category verbose files
    | some name =>
      checkFile (examplePath category name) verbose (category == invalidCategory)
      checkFiles category verbose files

def checkCategories (tree : Tree) (verbose : Bool) : List String → Job Unit
  | [] => return
  | category :: categories => do
    let u ← Job.lift (.path (Path.join examplesDir category))
      (tree.lookup (Path.join examplesDir category))
    checkFiles category verbose (← Job.listed u.names)
    checkCategories tree verbose categories

/-- the directory that the categories are listed from -/
def categoriesDir : String := "examples"

def categories (tree : Tree) : Except Tree.Fault (List String) := do
  match ← tree.lookup categoriesDir with
  | .dir entries => return (entries.filter (·.2.isDir)).map (·.1)
  | .file _ => throw .notDirectory

def runSuite (verbose : Bool) : Job Unit := do
  let tree := (← get).tree
  let names ← Job.lift (.path categoriesDir) (categories tree)
  let ordered ← Job.listed names
  Job.printText "\nOpenQASM conformance test suite\n\n"
  checkCategories tree verbose ordered

end CircuitBench.Conformance
