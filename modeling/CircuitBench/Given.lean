/-!
# Values that may be blank

A setting that was made may still hold no value at all.  It counts as an empty list: it is not set,
and whatever needs a value of another kind cannot use it.
-/

namespace CircuitBench

/-- what a setting holds -/
inductive Given (α : Type) where
  | value (a : α)
  | blank
  deriving DecidableEq, Repr

namespace Given

variable {α β ε : Type}

/-- the value, or a fault if there is none -/
def require (fault : ε) : Given α → Except ε α
  | .value a => .ok a
  | .blank => .error fault

def getD (default : α) : Given α → α
  | .value a => a
  | .blank => default

def isBlank : Given α → Bool
  | .value _ => false
  | .blank => true

def map (f : α → β) : Given α → Given β
  | .value a => .value (f a)
  | .blank => .blank

def blankKind : String := "list"

def blankText : String := "[]"

end Given

end CircuitBench
