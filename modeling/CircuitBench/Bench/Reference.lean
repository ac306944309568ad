import CircuitBench.Session

/-!
# Reference counts for hidden strings

With a hidden string of ones the only outcome is that string.  The reference for `m` hidden bits is
an object with one entry, in the file for the circuit of `m + 1` qubits.  It is written piece by
piece by commands of their own: each opens the file again, and one that cannot open it is left out.
-/

namespace CircuitBench.Reference

def path (m : Nat) : String := "bv_n" ++ toString (m + 1) ++ ".qasm.ref"

/-- a command of a script: the next one follows, whatever comes of it -/
def command (job : Job Unit) : Job Unit := tryCatch job fun _ => pure ()

/-- write the outcome of `m` ones, counted once -/
def write (m : Nat) : Job Unit := do
  command (Job.writeFile (path m) "\x7b\"")
  (List.range m).forM fun _ => command (Job.extendFile (path m) "1")
  command (Job.extendFile (path m) "\": 1\x7d\n")

/-- the numbers of hidden bits that references are written for -/
def sizes : List Nat := (List.range 10).map (10 + ·)

def writeAll : Job Unit := sizes.forM write

end CircuitBench.Reference
