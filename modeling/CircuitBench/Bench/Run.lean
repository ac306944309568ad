import CircuitBench.Bench.Select
import CircuitBench.Bench.Verify

/-!
# Running a benchmark

Every selected circuit file is loaded and executed once, and a record of the execution is printed.
Executions are on an outside machine or on a local simulator; the record has the time that the
machine reports, or the time that passed.
-/

namespace CircuitBench.Bench

structure Settings where
  name : Given String
  backend : Given String
  depth : Json
  seed : Json
  verify : Json

/-- one qubit number of a benchmark, with all settings read -/
structure Plan where
  name : String
  backend : Given String
  qubits : Int
  depth : Int
  seed : Json
  verify : Bool

def isRemote (backend : String) : Bool := backend.startsWith "ibmqx"

def isLocal (backend : String) : Bool := backend.startsWith "local"

def doneStatus : String := "DONE"

/-- how long an execution may take, in seconds -/
def timeLimit : Nat := 60 * 60 * 24

def Plan.execution (p : Plan) (backend : String) : Execution where
  names := [p.name]
  backend := backend
  shots := 1
  credits := 5
  timeout := timeLimit
  seed := p.seed

def Plan.record (p : Plan) (backend time : String) : String :=
  p.name ++ "," ++ backend ++ "," ++ toString p.qubits ++ "," ++ toString p.depth ++ "," ++ time

/-- open the account that a backend needs -/
def access (backend : String) : Job Unit := do
  if isRemote backend then
    let (token, url) ← Job.account
    Job.call (.setAccount token url)
  else if !isLocal backend then throw .unsupportedBackend

def timeText (backend : String) (reported : Option Json) (elapsed : Number) :
    Except Fault String :=
  if isRemote backend then
    match reported with
    | some t => .ok t.displayText
    | none => .error (.noField "time")
  else .ok elapsed.text

/-- execute one file, print its record and verify its counts; whether it went well -/
def runFile (p : Plan) (file : String) : Job Bool := do
  Job.call .program
  let backend ← Job.given (.noMember Given.blankKind "startswith") p.backend
  access backend
  Job.call (.load file p.name)
  let start ← Job.now
  Job.call (.execute (p.execution backend))
  let (status, counts, time) ← Job.nextOutcome
  let stop ← Job.now
  let elapsed ← Job.lift .number (stop.sub start)
  if status ≠ doneStatus then return false
  Job.printLine (p.record backend (← Job.lift id (timeText backend time elapsed)))
  if p.verify then verify counts p.name file
  return true

/-- run the selected ones of the files; `ran` tells whether the last file before them was run.
The last file decides whether there was a file to run. -/
def runFiles (p : Plan) : (ran : Bool) → List String → Job Bool
  | ran, [] => if ran then return true else throw .noCircuitFile
  | _, file :: files => do
    let selected ← Job.lift .pattern
      (selects (stem p.name p.qubits p.depth) (Path.baseName file))
    if !selected then runFiles p false files
    else if ← runFile p file then runFiles p true files
    else return false

/-- depth and seed: the depth must be a whole number, and the seed too when it is set -/
def Settings.numbers (s : Settings) : Except Json.WholeFault (Int × Json) := do
  let depth ← s.depth.toWhole
  let seed ← if s.seed.truthy then s.seed.toWhole.map (.num ∘ .whole) else .ok s.seed
  return (depth, seed)

def Settings.plan (s : Settings) (qubits : Int) : Except Fault Plan := do
  let (depth, seed) ← s.numbers.mapError .whole
  let name ← s.name.require (.kind (.joinedToList "str"))
  return {
    name := name, backend := s.backend, qubits := qubits, depth := depth, seed := seed
    verify := s.verify.truthy }

/-- run a benchmark for one qubit number; whether all executions went well -/
def run (s : Settings) (qubits : Int) : Job Bool := do
  let p ← Job.lift id (s.plan qubits)
  let files ← Job.listed ((← get).tree.expand (pathPattern p.name p.qubits p.depth))
  if files.isEmpty then throw .noCircuitFile
  runFiles p false files

/-- run a benchmark for the qubit numbers from `first` on, until an execution does not go well -/
def runFrom (s : Settings) : (count : Nat) → (first : Int) → Job Unit
  | 0, _ => return
  | count + 1, first => do
    if ← run s first then runFrom s count (first + 1)

/-- run a benchmark for the qubit numbers from `first` to `last` -/
def runRange (s : Settings) (first last : Int) : Job Unit :=
  runFrom s (last + 1 - first).toNat first

end CircuitBench.Bench
