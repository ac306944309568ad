import CircuitBench.Json.Value

/-!
# Answers of the toolkit

What the toolkit gives back: the outcome of an execution, the gates of a decomposition, the
rejection of a program text; and the account that it needs for a machine of its own.
-/

namespace CircuitBench

/-- what an execution gives -/
inductive Outcome where
  /-- a status, the counts of the measured values, and what is known of the time it took -/
  | done (status : String) (counts : List (String × Json)) (time : Option Json)
  | failed (kind message : String)
  | interrupted (message : String)

/-- an execution that went well and counted nothing -/
def Outcome.plain : Outcome := .done "DONE" [] none

/-- how the toolkit meets a program text that it does not accept -/
inductive Rejection where
  /-- the text is no valid program -/
  | invalid (message : String)
  /-- the parser failed -/
  | broken (kind message : String)
  deriving DecidableEq, Repr

/-- one gate of a decomposition, as the toolkit gives it: any of its parts may be absent -/
structure Part where
  name : Option String
  operands : Option (List Int)
  angles : Option (List Number)

structure Account where
  token : Option Json
  settings : Option Json

end CircuitBench
