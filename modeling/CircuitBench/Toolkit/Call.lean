import CircuitBench.Circuit.Basic
import CircuitBench.Given
import CircuitBench.Json.Value

/-!
# Calls to the toolkit

The toolkit is the outside program that holds circuits, loads and executes them, decomposes
unitaries, draws and parses.  What it is asked is a list of `Call`s; what it answers is given with
the session.

`Circuit.calls` is how a circuit is built up call by call.
-/

namespace CircuitBench

structure Execution where
  names : List String
  backend : String
  shots : Nat
  credits : Nat
  timeout : Nat
  /-- the seed as it was given, null when there is none -/
  seed : Json

inductive Call where
  /-- a new collection of circuits -/
  | program
  | quantumRegister (name : String) (size : Given Int)
  | classicalRegister (name : String) (size : Given Int)
  /-- a new circuit in the collection -/
  | createCircuit (name : String)
  /-- a circuit over the registers of these names -/
  | circuit (registers : List String)
  | gate (g : Gate Number String)
  /-- the last gate is guarded -/
  | guard (g : Guard)
  | barrier (register : Option String)
  | measure (source target : String)
  | addCircuit (name : String)
  | takeCircuit (name : String)
  /-- ask for the text of a circuit -/
  | takeText (name : String)
  /-- open an account for the collection -/
  | setAccount (token url : Json)
  /-- open an account -/
  | register (token url : Json)
  | load (path name : String)
  | execute (e : Execution)
  /-- execute circuits that are in no collection -/
  | executeAll (count : Nat) (backend : String)
  /-- decompose a two-qubit unitary -/
  | decompose
  | draw (file basis : String)
  /-- open a program text for parsing -/
  | openText (path : String)
  | parse
  /-- print the parsed program with a precision -/
  | print (precision : Int)

namespace Register

def quantumCall (r : Register) : Call := .quantumRegister r.name (.value r.size)

def classicalCall (r : Register) : Call := .classicalRegister r.name (.value r.size)

end Register

namespace Instruction

def calls : Instruction Number → List Call
  | .gate g guard => .gate (g.map Bit.text) :: guard.toList.map .guard
  | .barrier register => [.barrier register]
  | .measure source target => [.measure source.text target.text]
  | .measureAll source target => [.measure source target]

end Instruction

namespace Circuit

/-- the calls that make the registers and the circuit `name` of a new collection -/
def openingCalls (quantum classical : List Register) (name : String) : List Call :=
  .program :: quantum.map Register.quantumCall ++ classical.map Register.classicalCall ++
    [.createCircuit name, .circuit ((quantum ++ classical).map (·.name))]

def bodyCalls (c : Circuit Number) : List Call := c.body.flatMap Instruction.calls

def calls (c : Circuit Number) (name : String) : List Call :=
  openingCalls c.quantum c.classical name ++ c.bodyCalls

end Circuit

end CircuitBench
