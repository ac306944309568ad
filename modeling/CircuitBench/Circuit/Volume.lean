import CircuitBench.Fault
import CircuitBench.Toolkit.Answer

/-!
# Layers of model circuits

A model circuit is made of layers; in a layer the qubits are paired by a random permutation and
every pair gets a random two-qubit unitary, as the gates of its decomposition.  The operands of a
decomposition are zero and one, the two qubits of the pair.

* `onPair`    one gate of a decomposition on a pair;
* `block`     all gates of a decomposition, up to the first that is faulty.
-/

namespace CircuitBench.Volume

/-- the item at an index, where negative indices count from the end -/
def item {α : Type} (xs : List α) (i : Int) : Except Fault α :=
  let place := if i < 0 then i + xs.length else i
  if place < 0 then .error .noItem
  else
    match xs[place.toNat]? with
    | some x => .ok x
    | none => .error .noItem

def required {α : Type} (name : String) : Option α → Except Fault α
  | some a => .ok a
  | none => .error (.noField name)

/-- a gate of a decomposition on the qubits of a pair; a gate of another name does nothing -/
def onPair (pair : List Int) (part : Part) : Except Fault (Option (Gate Number Int)) := do
  let operand (i : Int) : Except Fault Int := do
    item pair (← item (← required "args" part.operands) i)
  let angle (i : Int) : Except Fault Number := do
    item (← required "params" part.angles) i
  let q ← operand 0
  match ← required "name" part.name with
  | "cx" => return some (.cx q (← operand 1))
  | "u1" => return some (.u1 (← angle 2) q)
  | "u2" => return some (.u2 (← angle 1) (← angle 2) q)
  | "u3" => return some (.u3 (← angle 0) (← angle 1) (← angle 2) q)
  | _ => return none

/-- the gates of a decomposition on a pair, and the fault that ends them early -/
def block (pair : List Int) : List Part → List (Gate Number Int) × Option Fault
  | [] => ([], none)
  | part :: parts =>
    match onPair pair part with
    | .error fault => ([], some fault)
    | .ok gate =>
      let (gates, fault) := block pair parts
      (gate.toList ++ gates, fault)

def qubit (i : Int) : Bit := ⟨"q", i⟩

def pairs (n : Int) : Nat := (n.fdiv 2).toNat

def closing : List (Instruction Number) := [.barrier (some "q"), .measureAll "q" "c"]

end CircuitBench.Volume
