import CircuitBench.Number

/-!
# Gates

`Gate θ ω` is a gate with angles in `θ` on operands in `ω`.  Both are free, so that one list of
gates can be written out with the angles of a machine and be read with exact ones.

* `Phase θ`            what a type of angles needs: halves, negatives, and the fractions of a half
                       turn by powers of two;
* `controlledPhase`    the five gates of a phase that two operands must agree on.
-/

namespace CircuitBench

inductive Gate (θ ω : Type) where
  | h (q : ω)
  | x (q : ω)
  | cx (control target : ω)
  | u1 (lam : θ) (q : ω)
  | u2 (phi lam : θ) (q : ω)
  | u3 (theta phi lam : θ) (q : ω)
  deriving Repr

namespace Gate

variable {θ ω ω' : Type}

def name : Gate θ ω → String
  | .h _ => "h"
  | .x _ => "x"
  | .cx _ _ => "cx"
  | .u1 _ _ => "u1"
  | .u2 _ _ _ => "u2"
  | .u3 _ _ _ _ => "u3"

def angles : Gate θ ω → List θ
  | .h _ => []
  | .x _ => []
  | .cx _ _ => []
  | .u1 lam _ => [lam]
  | .u2 phi lam _ => [phi, lam]
  | .u3 theta phi lam _ => [theta, phi, lam]

def operands : Gate θ ω → List ω
  | .h q => [q]
  | .x q => [q]
  | .cx control target => [control, target]
  | .u1 _ q => [q]
  | .u2 _ _ q => [q]
  | .u3 _ _ _ q => [q]

/-- the same gate on other operands -/
def map (f : ω → ω') : Gate θ ω → Gate θ ω'
  | .h q => .h (f q)
  | .x q => .x (f q)
  | .cx control target => .cx (f control) (f target)
  | .u1 lam q => .u1 lam (f q)
  | .u2 phi lam q => .u2 phi lam (f q)
  | .u3 theta phi lam q => .u3 theta phi lam (f q)

@[simp] theorem operands_map (f : ω → ω') (g : Gate θ ω) :
    (g.map f).operands = g.operands.map f := by
  cases g <;> rfl

end Gate

/-- angles that can be halved, negated, and taken as fractions of a half turn -/
class Phase (θ : Type) where
  half : θ → θ
  neg : θ → θ
  /-- the half turn divided by `2 ^ e` -/
  piOver : (e : Nat) → θ

/-- the real number of 64 bits next to the half turn -/
def piReal : Float := Float.ofBits 0x400921FB54442D18

instance : Phase Number where
  half a := .real a.half
  neg := Number.neg
  piOver e := .real (piReal / Decimal.ofWhole (2 ^ e))

/-- the phase `l` applied when both operands are one: two phases of half the angle, and one of
its negative on whether the operands differ -/
def controlledPhase {θ ω : Type} [Phase θ] (l : θ) (a b : ω) : List (Gate θ ω) :=
  [.u1 (Phase.half l) a, .cx a b, .u1 (Phase.half (Phase.neg l)) b, .cx a b, .u1 (Phase.half l) b]

theorem controlledPhase_length {θ ω : Type} [Phase θ] (l : θ) (a b : ω) :
    (controlledPhase l a b).length = 5 := rfl

theorem controlledPhase_operands {θ ω : Type} [Phase θ] (l : θ) {a b : ω} (h : a ≠ b) :
    ∀ g ∈ controlledPhase l a b, g.operands.Nodup := by
  intro g hg
  simp only [controlledPhase, List.mem_cons, List.not_mem_nil, or_false] at hg
  rcases hg with rfl | rfl | rfl | rfl | rfl <;> simp [Gate.operands, h]

end CircuitBench
