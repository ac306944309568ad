import CircuitBench.Circuit.CounterfeitCoin
import CircuitBench.Generate.Output

/-!
# Generating counterfeit-coin circuits

The index of the false coin may be left blank; the circuit then has a gate on a qubit without a
number.
-/

namespace CircuitBench.Generate.CounterfeitCoin

open CircuitBench.CounterfeitCoin Query

def build (n coin : Int) : Job Unit := Job.callAll ((circuit n coin).calls name)

def blankQubit : String := "qr[" ++ Given.blankText ++ "]"

def opening (n : Int) : Circuit Number :=
  { (circuit n 0 : Circuit Number) with body := query n ++ prepare n }

def blankCalls (n : Int) : List Call :=
  (opening n).calls name ++
    [.barrier none, .gate (.cx blankQubit (qubit n).text), .guard ⟨"cr", 0⟩, .barrier none] ++
    (readOut n).flatMap Instruction.calls

/-- build the circuit in the toolkit, whether the coin is given or blank -/
def buildGiven (n : Int) : Given Int → Job Unit
  | .value coin => build n coin
  | .blank => Job.callAll (blankCalls n)

def comments (n : Int) (coin : Given Int) : List String :=
  ["Counterfeit coin finding with " ++ toString n ++ " coins.",
    "The false coin is " ++ (coin.map toString).getD Given.blankText]

/-- the name of the output when none is given: it counts the qubits -/
def defaultName (n : Int) : String := "cc_n" ++ toString (n + 1)

def noCoins : Fault := .kind (.joinedToList "int")

/-- generate the circuit for `n` coins of which one is false, and write it out; the coins are
counted for the name of the output, or else in a new collection of circuits -/
def generate (n coin : Given Int) (drawn : Bool) (output : Option (Given String)) : Job Unit := do
  if n.isBlank && output.isSome then Job.call .program
  let n ← Job.given noCoins n
  buildGiven n coin
  deliver name (comments n coin) drawn (output.getD (.value (defaultName n)))

end CircuitBench.Generate.CounterfeitCoin
