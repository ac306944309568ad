import CircuitBench.Generate.Output

/-!
# Generating hidden-string circuits
-/

namespace CircuitBench.Generate.HiddenString

open CircuitBench.HiddenString

/-- random bits, each a one with the given probability -/
def drawBits (prob : Given Number) : (count : Nat) → Job (List Char)
  | 0 => return []
  | count + 1 => do
    let x ← Job.drawReal
    let prob ← Job.given (.kind (.order x.kind Given.blankKind)) prob
    let rest ← drawBits (.value prob) count
    return (if x.le prob then '1' else '0') :: rest

def drawString (length : Int) (prob : Given Number) : Job String :=
  return String.ofList (← drawBits prob length.toNat)

def build (n : Int) (hidden : String) : Job Unit := Job.callAll ((circuit n hidden).calls name)

def comments (n : Int) (hidden : String) : List String :=
  ["Bernstein-Vazirani with " ++ toString n ++ " qubits.", "Hidden string is " ++ hidden]

def defaultName (n : Int) : String := "bv_n" ++ toString n

/-- generate the circuit of `n` qubits for a hidden string, or for a random one, and write it out -/
def generate (n : Given Int) (hidden : Option (Given String)) (prob : Given Number) (drawn : Bool)
    (output : Option (Given String)) : Job Unit := do
  let n ← Job.given (.kind (.arithmetic "-" Given.blankKind "int")) n
  let s ← match hidden with
    | some s => pure s
    | none => Given.value <$> drawString (n - 1) prob
  Job.lift .hiddenString (check (s.getD "") (n - 1))
  let s ← Job.given (.kind (.joinedToText Given.blankKind)) s
  build n s
  deliver name (comments n s) drawn (output.getD (.value (defaultName n)))

end CircuitBench.Generate.HiddenString
