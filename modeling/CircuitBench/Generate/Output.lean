import CircuitBench.Session

/-!
# Writing programs out

A program goes to a file, or to the screen when no name is given, with comment lines in front.
The screen gets it line by line, the file piece by piece.  The extension is added to the name; a
name that has it already names no file.
-/

namespace CircuitBench.Generate

def extension : String := ".qasm"

def commentLine (comment : String) : String := "//" ++ comment

def outputPath (name : String) : Except Fault String :=
  if name.endsWith extension then .error .unnamedOutput else .ok (name ++ extension)

/-- write a program to the file of a name, or to the screen -/
def output (program : String) (comments : List String) : (name : Option String) → Job Unit
  | none => do
    comments.forM fun c => Job.printLine (commentLine c)
    Job.printLine program
  | some name => do
    let path ← Job.lift id (outputPath name)
    let place ← Job.openFile path
    comments.forM fun c => do
      Job.appendFile place (commentLine c)
      Job.appendFile place "\n"
    Job.appendFile place program

def defaultDrawing : String := "bv.tex"

/-- the gates that a drawing shows -/
def drawingBasis : String := "h,x,cx"

def draw (file : String) : Job Unit := Job.call (.draw file drawingBasis)

/-- ask for the text of a circuit, write it out, and draw the circuit if wanted -/
def deliver (circuitName : String) (comments : List String) (drawn : Bool)
    (name : Given String) : Job Unit := do
  let program ← Job.takeText circuitName
  let name ← Job.given (.noMember Given.blankKind "endswith") name
  output program comments (some name)
  if drawn then
    Job.call (.takeCircuit circuitName)
    draw (name ++ ".tex")

end CircuitBench.Generate
