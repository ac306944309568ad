import CircuitBench.Circuit.Volume
import CircuitBench.Session
import CircuitBench.Unitary.Householder

/-!
# Generating model circuits

Random special unitaries, the layers that are made of them, and the execution of the circuits.
-/

namespace CircuitBench.Generate.Volume

open CircuitBench.Volume

section
variable {α : Type} [Scalar α]

/-- the sum of `x` and `y` times the imaginary unit, with the signs that this gives to zeros -/
def entryOf (x y : α) : Cplx α := ⟨x + (0 * y - 0), 0 + y⟩

/-- the matrix whose real parts are the first `n * n` numbers, row by row, and whose imaginary
parts are the others -/
def matrixOf (n : Nat) (xs : List α) : Square n (Cplx α) :=
  let parts := xs.toArray
  .of fun i j => entryOf (parts.getD (i * n + j) 0) (parts.getD (n * n + (i * n + j)) 0)

end

def isFinite {n : Nat} (m : Square n (Cplx Float)) : Bool :=
  (List.finRange n).all fun i => (List.finRange n).all fun j =>
    (m.get i j).re.isFinite && (m.get i j).im.isFinite

/-- a random special unitary of `n` rows; a factor with a number that is not finite has no
determinant -/
def drawUnitary (n : Int) : Job (Square n.toNat (Cplx Float)) := do
  if n < 0 then throw .negativeDimension
  let xs ← Job.drawNormals (2 * n.toNat * n.toNat)
  if !xs.all Float.isFinite then throw .notFinite
  if n.toNat = 0 then throw .divisionByZero
  let a := matrixOf n.toNat xs
  if !isFinite (Unitary.factor a).1 then throw .notFinite
  return Unitary.special a

def qubitAt (perm : List Int) (k : Nat) : Except Fault Int :=
  match perm[k]? with
  | some q => .ok q
  | none => .error (.noPlace k perm.length)

/-- the gates of a random two-qubit unitary on pair `k` of a permutation -/
def addPair (perm : List Int) (k : Nat) : Job Unit := do
  let first ← Job.lift id (qubitAt perm (2 * k))
  let second ← Job.lift id (qubitAt perm (2 * k + 1))
  let _ ← drawUnitary 4
  Job.call .decompose
  let (gates, fault) := block [first, second] (← Job.nextDecomposition)
  Job.callAll (gates.map fun g => .gate (g.map fun i => (qubit i).text))
  match fault with
  | some fault => throw fault
  | none => return

def repeatJob (count : Nat) (job : Job Unit) : Job Unit :=
  (List.range count).forM fun _ => job

def addLayer (n : Given Int) : Job Unit := do
  let perm ← Job.nextPermutation n
  let n ← Job.given (.kind (.arithmetic "/" Given.blankKind "int")) n
  (List.range (pairs n)).forM (addPair perm)

def addCircuit (n depth : Given Int) : Job Unit := do
  Job.call (.circuit ["q", "c"])
  let depth ← Job.given (.kind (.count Given.blankKind)) depth
  repeatJob depth.toNat (addLayer n)
  Job.callAll (closing.flatMap Instruction.calls)

/-- model circuits of `n` qubits; the result is their number -/
def build (n depth count : Given Int) : Job Nat := do
  Job.callAll [.quantumRegister "q" n, .classicalRegister "c" n]
  let count ← Job.given (.kind (.count Given.blankKind)) count
  repeatJob count.toNat (addCircuit n depth)
  return count.toNat

/-- execute the circuits and print the counts of the first one -/
def execute (count : Nat) (backend : Given String) : Job Unit := do
  let backend ← Job.given (.noMember Given.blankKind "startswith") backend
  if backend.startsWith "ibmq" then
    let (token, url) ← Job.account
    Job.call (.register token url)
  Job.call (.executeAll count backend)
  let (_, counts, _) ← Job.nextOutcome
  if count = 0 then throw .noItem
  Job.printLine (Json.literal (.obj (counts.map fun c => (.ofString c.1, c.2))))

/-- generate model circuits and execute them; saving them stops at a name that stands for
nothing -/
def generate (n depth count : Given Int) (run : Bool) (backend : Given String) : Job Unit := do
  let built ← build n depth count
  if run then execute built backend
  else throw (.undefinedName "num_circ")

end CircuitBench.Generate.Volume
