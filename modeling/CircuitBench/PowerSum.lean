import CircuitBench.Json.Value

/-!
# Sums of powers of two

The sum of two to the power of every item of a list, from the last item to the first.  An item may
be any value that stands for a whole number.

The list is worked on in place: `sumPowers` turns it round, adds up the powers and turns it back.
A fault stops it where it arises, and the list stays as it is then.
-/

namespace CircuitBench

inductive PowerFault where
  | item (fault : Json.WholeFault)
  | number (fault : Number.Fault)
  deriving DecidableEq, Repr

def PowerFault.message : PowerFault → String
  | .item fault => fault.message
  | .number fault => fault.message

/-- a computation that works on a list; what it did to the list stays done on a fault -/
abbrev InPlace := ExceptT PowerFault (StateM (List Json))

/-- a sum and the power of one more item -/
def addPower (total : Number) (item : Json) : Except PowerFault Number := do
  let k ← item.toWhole.mapError .item
  let power ← (Number.powerOfTwo k).mapError .number
  (total.add power).mapError .number

/-- the sum of the powers of all items of the list -/
def sumPowers : InPlace Number := do
  modify List.reverse
  let total ← ofExcept ((← get).foldlM addPower (.whole 0))
  modify List.reverse
  return total

/-- the sum of the powers, and the list afterwards -/
def powerSum (items : List Json) : Except PowerFault Number × List Json := sumPowers.run.run items

end CircuitBench
