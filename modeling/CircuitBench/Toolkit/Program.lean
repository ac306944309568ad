import CircuitBench.Text.Split
import CircuitBench.Toolkit.Call

/-!
# Programs

The text that is given for a circuit where no other answer is known: an OpenQASM program with one
statement for each register and for each gate, barrier and measurement since the collection was
started.
-/

namespace CircuitBench

/-- a program that is being written -/
structure Draft where
  quantum : List Register
  /-- the statements so far, the latest first -/
  statements : List String

namespace Draft

def joined (ss : List String) : String := Text.joinWith "," ss

/-- a gate with its angles in parentheses and its operands -/
def gateText (g : Gate Number String) : String :=
  let angles := if g.angles.isEmpty then "" else "(" ++ joined (g.angles.map Number.text) ++ ")"
  g.name ++ angles ++ " " ++ joined g.operands

def guardText (g : Guard) : String := "if(" ++ g.register ++ "==" ++ toString g.value ++ ") "

def registerText (kind name : String) (size : Given Int) : String :=
  kind ++ " " ++ name ++ "[" ++ (size.map toString).getD Given.blankText ++ "]"

def barrierBits (quantum : List Register) (register : Option String) : List Bit :=
  match register with
  | none => quantum.flatMap Register.bits
  | some name => (quantum.filter (·.name = name)).flatMap Register.bits

def initial : Draft := ⟨[], ["include \"qelib1.inc\"", "OPENQASM 2.0"]⟩

def state (d : Draft) (statement : String) : Draft :=
  { d with statements := statement :: d.statements }

def guarded (d : Draft) (g : Guard) : Draft :=
  match d.statements with
  | [] => d
  | s :: ss => { d with statements := (guardText g ++ s) :: ss }

/-- the program after one more call; most calls say nothing in it -/
def add (d : Draft) : Call → Draft
  | .program => initial
  | .quantumRegister name size =>
    { d.state (registerText "qreg" name size) with quantum := d.quantum ++ [⟨name, size.getD 0⟩] }
  | .classicalRegister name size => d.state (registerText "creg" name size)
  | .gate g => d.state (gateText g)
  | .guard g => d.guarded g
  | .barrier register =>
    d.state ("barrier " ++ joined ((barrierBits d.quantum register).map Bit.text))
  | .measure source target => d.state ("measure " ++ source ++ " -> " ++ target)
  | _ => d

/-- the statements as a program, one a line -/
def text (d : Draft) : String := String.join (d.statements.reverse.map fun s => s ++ ";\n")

end Draft

def programText (calls : List Call) : String := (calls.foldl Draft.add .initial).text

end CircuitBench
