import CircuitBench.Circuit.Gate
import Mathlib

/-!
# The unitaries of gates

Wires are the members of a finite type `ω`.  A basis state gives every wire a value, a state gives
every basis state an amplitude, and a gate is a unitary matrix over the basis states.

* `onWire m q`         the two by two matrix `m` on the wire `q`, the other wires left alone;
* `controlledNot c t`  the wire `t` flipped where the wire `c` is one;
* `Gate.operator`      the matrix of a gate with exact angles;
* `gatesOperator`      the matrix of a list of gates, later gates on the left.

The gates of a controlled phase are diagonal together (`controlledPhase_mulVec`).  A gate is unitary
as soon as its operands differ (`gatesOperator_mem_unitaryGroup`).
-/

namespace CircuitBench

open Matrix Complex

noncomputable section

namespace Quantum

variable {ω : Type}

/-- the values of the wires -/
abbrev Basis (ω : Type) := ω → Bool

/-- the amplitudes of the basis states -/
abbrev State (ω : Type) := Basis ω → ℂ

abbrev Operator (ω : Type) := Matrix (Basis ω) (Basis ω) ℂ

/-! ## matrices of one wire -/

/-- definitions with the numeral two refer to this proof and make none of their own -/
theorem atLeastTwo_two : Nat.AtLeastTwo 2 := ⟨le_rfl⟩

def hadamard : Matrix Bool Bool ℂ := of fun a b => (if a && b then -1 else 1) / (√2 : ℂ)

def negation : Matrix Bool Bool ℂ := of fun a b => if a = !b then 1 else 0

/-- the general unitary of one wire, the amplitude of zero first -/
def rotation (theta phi lam : ℝ) : Matrix Bool Bool ℂ :=
  of fun a b =>
    match a, b with
    | false, false => Real.cos (theta / 2)
    | false, true => -(exp (lam * I) * Real.sin (theta / 2))
    | true, false => exp (phi * I) * Real.sin (theta / 2)
    | true, true => exp ((phi + lam) * I) * Real.cos (theta / 2)

/-- without an inclination only the amplitude of one is turned -/
theorem rotation_zero (lam : ℝ) :
    rotation 0 0 lam = diagonal fun b => if b then exp (lam * I) else 1 := by
  ext a b
  cases a <;> cases b <;> simp [rotation]

theorem sqrt_two_mul_sqrt_two : (√2 : ℂ) * (√2 : ℂ) = 2 := by
  rw [← ofReal_mul, Real.mul_self_sqrt (by norm_num)]
  norm_num

theorem sqrt_two_ne_zero : (√2 : ℂ) ≠ 0 := by
  intro h
  have := sqrt_two_mul_sqrt_two
  rw [h] at this
  norm_num at this

theorem conj_exp_mul_I (t : ℝ) : (starRingEnd ℂ) (exp (t * I)) = exp (-(t * I)) := by
  rw [← exp_conj, map_mul, conj_ofReal, conj_I, mul_neg]

theorem hadamard_mem_unitaryGroup : hadamard ∈ unitaryGroup Bool ℂ := by
  rw [mem_unitaryGroup_iff]
  ext a b
  have h := sqrt_two_ne_zero
  have h2 := sqrt_two_mul_sqrt_two
  cases a <;> cases b <;>
    simp [hadamard, star_eq_conjTranspose, mul_apply] <;> field_simp <;> grind

theorem negation_mem_unitaryGroup : negation ∈ unitaryGroup Bool ℂ := by
  rw [mem_unitaryGroup_iff]
  ext a b
  cases a <;> cases b <;> simp [negation, star_eq_conjTranspose, mul_apply]

theorem rotation_mem_unitaryGroup (theta phi lam : ℝ) :
    rotation theta phi lam ∈ unitaryGroup Bool ℂ := by
  have hc : (Real.cos (theta / 2) : ℂ) * Real.cos (theta / 2)
      + Real.sin (theta / 2) * Real.sin (theta / 2) = 1 := by
    have h := Real.cos_sq_add_sin_sq (theta / 2)
    rw [pow_two, pow_two] at h
    exact_mod_cast h
  have he (t : ℂ) : exp t * exp (-t) = 1 := by rw [← exp_add, add_neg_cancel, exp_zero]
  have hs : exp ((phi + lam : ℝ) * I) = exp (phi * I) * exp (lam * I) := by
    rw [← exp_add, ofReal_add, add_mul]
  rw [mem_unitaryGroup_iff]
  ext a b
  have hp := he (phi * I)
  have hl := he (lam * I)
  cases a <;> cases b <;>
    simp only [rotation, star_eq_conjTranspose, mul_apply, of_apply, conjTranspose_apply,
      Fintype.sum_bool, star_def, map_neg, map_mul, conj_ofReal, conj_exp_mul_I, ← ofReal_add,
      hs, one_apply_eq, ne_eq, reduceCtorEq, not_false_eq_true, one_apply_ne] <;>
    grind

/-! ## operators on all wires -/

section
variable [DecidableEq ω]

/-- the values after the wire `t` is flipped where the wire `c` is one -/
def flipIf (c t : ω) (x : Basis ω) : Basis ω := if x c then Function.update x t (!x t) else x

theorem flipIf_flipIf {c t : ω} (h : c ≠ t) (x : Basis ω) : flipIf c t (flipIf c t x) = x := by
  by_cases hc : x c
  · simp [flipIf, hc, h]
  · simp [flipIf, hc]

theorem flipIf_eq_comm {c t : ω} (h : c ≠ t) (x y : Basis ω) :
    flipIf c t x = y ↔ flipIf c t y = x := by
  constructor
  · rintro rfl
    exact flipIf_flipIf h x
  · rintro rfl
    exact flipIf_flipIf h y

variable [Fintype ω]

/-- the matrix `m` on the wire `q` -/
def onWire (m : Matrix Bool Bool ℂ) (q : ω) : Operator ω :=
  of fun x y => if Function.update x q (y q) = y then m (x q) (y q) else 0

def controlledNot (c t : ω) : Operator ω := of fun x y => if flipIf c t x = y then 1 else 0

/-- only the two values of the wire are mixed -/
theorem onWire_mulVec (m : Matrix Bool Bool ℂ) (q : ω) (ψ : State ω) (x : Basis ω) :
    (onWire m q *ᵥ ψ) x = ∑ b, m (x q) b * ψ (Function.update x q b) := by
  have hy (y : Basis ω) : (if Function.update x q (y q) = y then m (x q) (y q) else 0) * ψ y
      = ∑ b, if Function.update x q b = y then m (x q) b * ψ y else 0 := by
    by_cases h : Function.update x q (y q) = y
    · rw [if_pos h, Finset.sum_eq_single (y q), if_pos h]
      · intro b _ hb
        rw [if_neg]
        rintro rfl
        exact hb (Function.update_self q b x).symm
      · exact fun hn => absurd (Finset.mem_univ _) hn
    · rw [if_neg h, zero_mul, Finset.sum_eq_zero]
      intro b _
      rw [if_neg]
      rintro rfl
      exact h (by rw [Function.update_self])
  simp only [mulVec, dotProduct, onWire, of_apply, hy]
  rw [Finset.sum_comm]
  simp

theorem controlledNot_mulVec (c t : ω) (ψ : State ω) (x : Basis ω) :
    (controlledNot c t *ᵥ ψ) x = ψ (flipIf c t x) := by
  simp [mulVec, dotProduct, controlledNot]

/-- an operator is known by what it does to the states -/
theorem operator_ext {A B : Operator ω} (h : ∀ ψ, A *ᵥ ψ = B *ᵥ ψ) : A = B := by
  apply Matrix.ext
  intro y x
  have hx := congrFun (h (Pi.single x 1)) y
  simpa using hx

theorem onWire_mul (m m' : Matrix Bool Bool ℂ) (q : ω) :
    onWire m q * onWire m' q = onWire (m * m') q := by
  apply operator_ext
  intro ψ
  funext x
  rw [← mulVec_mulVec, onWire_mulVec, onWire_mulVec]
  simp only [onWire_mulVec, Function.update_self, Function.update_idem, mul_apply, Finset.sum_mul,
    Finset.mul_sum]
  rw [Finset.sum_comm]
  simp only [mul_assoc]

theorem onWire_one (q : ω) : onWire 1 q = 1 := by
  apply operator_ext
  intro ψ
  funext x
  rw [onWire_mulVec, one_mulVec, Finset.sum_eq_single (x q)]
  · rw [one_apply_eq, one_mul, Function.update_eq_self]
  · intro b _ hb
    rw [one_apply_ne hb.symm, zero_mul]
  · exact fun hn => absurd (Finset.mem_univ _) hn

theorem star_onWire (m : Matrix Bool Bool ℂ) (q : ω) : star (onWire m q) = onWire (star m) q := by
  ext x y
  have hxy : Function.update y q (x q) = x ↔ Function.update x q (y q) = y := by
    constructor
    · intro h
      rw [← h, Function.update_idem, Function.update_eq_self]
    · intro h
      rw [← h, Function.update_idem, Function.update_eq_self]
  by_cases h : Function.update x q (y q) = y
  · simp [onWire, hxy, h]
  · simp [onWire, hxy, h]

theorem onWire_mem_unitaryGroup {m : Matrix Bool Bool ℂ} (hm : m ∈ unitaryGroup Bool ℂ) (q : ω) :
    onWire m q ∈ unitaryGroup (Basis ω) ℂ := by
  rw [mem_unitaryGroup_iff] at hm ⊢
  rw [star_onWire, onWire_mul, hm, onWire_one]

theorem controlledNot_mem_unitaryGroup {c t : ω} (h : c ≠ t) :
    controlledNot c t ∈ unitaryGroup (Basis ω) ℂ := by
  have hs : star (controlledNot c t) = controlledNot c t := by
    ext x y
    simp only [star_eq_conjTranspose, conjTranspose_apply, controlledNot, of_apply,
      flipIf_eq_comm h y x]
    split <;> simp
  rw [mem_unitaryGroup_iff, hs]
  apply operator_ext
  intro ψ
  funext x
  rw [← mulVec_mulVec, controlledNot_mulVec, controlledNot_mulVec, flipIf_flipIf h, one_mulVec]

end

end Quantum

open Quantum

section
variable {ω : Type} [Fintype ω] [DecidableEq ω]

instance : Phase ℝ where
  half a := a / 2
  neg a := -a
  piOver e := Real.pi / 2 ^ e

def Gate.operator : Gate ℝ ω → Operator ω
  | .h q => onWire hadamard q
  | .x q => onWire negation q
  | .cx control target => controlledNot control target
  | .u1 lam q => onWire (rotation 0 0 lam) q
  | .u2 phi lam q => onWire (rotation (Real.pi / 2) phi lam) q
  | .u3 theta phi lam q => onWire (rotation theta phi lam) q

theorem Gate.operator_mem_unitaryGroup (g : Gate ℝ ω) (h : g.operands.Nodup) :
    g.operator ∈ unitaryGroup (Basis ω) ℂ := by
  cases g with
  | h q => exact onWire_mem_unitaryGroup hadamard_mem_unitaryGroup q
  | x q => exact onWire_mem_unitaryGroup negation_mem_unitaryGroup q
  | cx control target =>
    apply controlledNot_mem_unitaryGroup
    simpa [Gate.operands] using h
  | u1 lam q => exact onWire_mem_unitaryGroup (rotation_mem_unitaryGroup _ _ _) q
  | u2 phi lam q => exact onWire_mem_unitaryGroup (rotation_mem_unitaryGroup _ _ _) q
  | u3 theta phi lam q => exact onWire_mem_unitaryGroup (rotation_mem_unitaryGroup _ _ _) q

namespace Quantum

def gatesOperator : List (Gate ℝ ω) → Operator ω
  | [] => 1
  | g :: gs => gatesOperator gs * g.operator

theorem gatesOperator_mulVec_nil (ψ : State ω) : gatesOperator [] *ᵥ ψ = ψ := by
  rw [gatesOperator, one_mulVec]

theorem gatesOperator_mulVec_cons (g : Gate ℝ ω) (gs : List (Gate ℝ ω)) (ψ : State ω) :
    gatesOperator (g :: gs) *ᵥ ψ = gatesOperator gs *ᵥ (g.operator *ᵥ ψ) := by
  rw [gatesOperator, mulVec_mulVec]

theorem onWire_rotation_mulVec (lam : ℝ) (q : ω) (ψ : State ω) (x : Basis ω) :
    (onWire (rotation 0 0 lam) q *ᵥ ψ) x = (if x q then exp (lam * I) else 1) * ψ x := by
  rw [onWire_mulVec, rotation_zero, Finset.sum_eq_single (x q)]
  · rw [diagonal_apply_eq, Function.update_eq_self]
  · intro b _ hb
    rw [diagonal_apply_ne _ hb.symm, zero_mul]
  · exact fun hn => absurd (Finset.mem_univ _) hn

/-- the five gates of a controlled phase turn the amplitudes where both wires are one -/
theorem controlledPhase_mulVec (l : ℝ) {a b : ω} (h : a ≠ b) (ψ : State ω) (x : Basis ω) :
    (gatesOperator (controlledPhase l a b) *ᵥ ψ) x
      = (if x a && x b then exp (l * I) else 1) * ψ x := by
  have hp : exp ((l / 2 : ℝ) * I) * exp ((l / 2 : ℝ) * I) = exp (l * I) := by
    rw [← exp_add, ← add_mul, ← ofReal_add, add_halves]
  have hn : exp ((l / 2 : ℝ) * I) * exp ((-l / 2 : ℝ) * I) = 1 := by
    rw [← exp_add, ← add_mul, ← ofReal_add, neg_div, add_neg_cancel, ofReal_zero, zero_mul,
      exp_zero]
  have hfb : flipIf a b x b = (x a ^^ x b) := by
    by_cases ha : x a <;> simp [flipIf, ha]
  simp only [controlledPhase, gatesOperator_mulVec_cons, gatesOperator_mulVec_nil, Gate.operator,
    onWire_rotation_mulVec, controlledNot_mulVec, flipIf_flipIf h, hfb, Phase.half, Phase.neg]
  cases ha : x a <;> cases hb : x b
  -- the three phases add up to the whole angle, or cancel
  · simp
  · grind
  · grind
  · grind

theorem gatesOperator_mem_unitaryGroup (gs : List (Gate ℝ ω)) (h : ∀ g ∈ gs, g.operands.Nodup) :
    gatesOperator gs ∈ unitaryGroup (Basis ω) ℂ := by
  induction gs with
  | nil => exact one_mem _
  | cons g gs ih =>
    apply mul_mem
    · exact ih fun g' h' => h g' (List.mem_cons_of_mem g h')
    · exact g.operator_mem_unitaryGroup (h g List.mem_cons_self)

end Quantum

end

end

end CircuitBench
