import CircuitBench.Circuit.Fourier
import CircuitBench.Generate.Output

/-!
# Generating Fourier transforms
-/

namespace CircuitBench.Generate.Fourier

open CircuitBench.Fourier

/-- add a controlled phase to a circuit; an angle that is too large to be halved is a fault -/
def phase (l : Number) (a b : String) : Job Unit := do
  if !l.hasHalf then throw (.number .quotientTooLarge)
  Job.callAll ((controlledPhase l a b).map .gate)

/-- add the transform of `n` qubits to a circuit, as far as it can be written -/
def transform (n : Int) : Job Unit := do
  let (ss, complete) := emitted n.toNat
  Job.callAll ((instructions ss).flatMap Instruction.calls)
  if !complete then throw (.number .wholeTooLarge)

def workName : String := "meas"

def keptName (name : String) (n : Int) : String := name ++ "_" ++ toString n

/-- the calls that start a collection with a circuit over two registers -/
def openingCalls (n : Given Int) : List Call :=
  [.program, .quantumRegister "q" n, .classicalRegister "c" n, .createCircuit workName,
    .circuit ["q", "c"]]

def build (name : String) (n : Given Int) : Job Unit := do
  Job.callAll (openingCalls n)
  let n ← Job.given (.kind (.count Given.blankKind)) n
  transform n
  Job.callAll ((closing n).flatMap Instruction.calls)
  Job.call (.addCircuit (keptName name n))

def generate (name : Given String) (n : Given Int) : Job Unit := do
  build (name.getD Given.blankText) n
  let name ← Job.given (.kind (.joinedToList "str")) name
  let n ← Job.given (.kind (.count Given.blankKind)) n
  let place ← Job.openFile (name ++ "_n" ++ toString n ++ extension)
  let program ← Job.takeText (keptName name n)
  Job.fillFile place program

end CircuitBench.Generate.Fourier
