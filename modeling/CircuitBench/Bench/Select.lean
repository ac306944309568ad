import CircuitBench.Pattern.Match
import CircuitBench.Pattern.Reader
import CircuitBench.Tree.Expand

/-!
# Which files belong to a benchmark

The circuit files of a benchmark lie in the directory of its name and are named after it, with the
number of qubits and, where it matters, the depth.  A first, coarse choice is made by a pattern for
paths; a file is selected if its name fits one of two text patterns.  The name of the benchmark goes
into all patterns as it is, and a number with all its digits, however many there are.
-/

namespace CircuitBench.Bench

/-- what the names of the files start with -/
def stem (name : String) (qubits depth : Int) : String :=
  name ++ "_n" ++ toString qubits ++ (if 0 < depth then "_d" ++ toString depth else "")

def pathPattern (name : String) (qubits depth : Int) : String :=
  name ++ "/" ++ stem name qubits depth ++ "*.qasm"

/-- the stem, then no digit up to the extension -/
def plainPattern (stem : String) : String := stem ++ "[^0-9]*\\.qasm"

/-- the stem, then something that is no digit, then anything -/
def labelledPattern (stem : String) : String := stem ++ "\\D.*\\.qasm"

/-- whether a file of that name is selected; the second pattern is read only if the first one
does not fit -/
def selects (stem name : String) : Except Pattern.Fault Bool := do
  let plain ← Pattern.parse (plainPattern stem)
  if plain.occursIn name.toList then return true
  let labelled ← Pattern.parse (labelledPattern stem)
  return labelled.occursIn name.toList

end CircuitBench.Bench
