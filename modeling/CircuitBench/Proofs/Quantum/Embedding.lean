import CircuitBench.Proofs.Quantum.Operators

/-!
# Operators on some of the wires

An injection `e` picks wires out of a larger set.  `embedded e m` is the operator `m` on the picked
wires and the identity on all others.  The state of the picked wires, once the values of the others
are fixed, is a slice of the whole state, and `embedded e m` acts as `m` on every slice
(`embedded_mulVec`).

From this the embedding keeps products (`embedded_mul`) and takes gates to the same gates on the
picked wires (`Gate.operator_map`), so it takes the operator of a list of gates to that of the
renamed list (`gatesOperator_map`).
-/

namespace CircuitBench

open Matrix

noncomputable section

variable {κ ω : Type}

namespace Quantum

/-! ## slices -/

/-- the values `v` on the picked wires, those of `x` on the others -/
def patched (e : κ ↪ ω) (x : Basis ω) (v : Basis κ) : Basis ω := Function.extend e v x

section
variable (e : κ ↪ ω) (x : Basis ω)

theorem patched_picked (v : Basis κ) (k : κ) : patched e x v (e k) = v k :=
  e.injective.extend_apply v x k

theorem patched_other (v : Basis κ) {w : ω} (h : ∀ k, e k ≠ w) : patched e x v w = x w :=
  Function.extend_apply' v x w fun ⟨k, hk⟩ => h k hk

theorem patched_comp (v : Basis κ) : patched e x v ∘ e = v := by
  funext k
  exact patched_picked e x v k

/-- values are compared on the picked wires and on the others -/
theorem eq_patched_iff (v : Basis κ) (y : Basis ω) :
    y = patched e x v ↔ y ∘ e = v ∧ ∀ w, (∀ k, e k ≠ w) → y w = x w := by
  constructor
  · rintro rfl
    exact ⟨patched_comp e x v, fun w h => patched_other e x v h⟩
  · rintro ⟨rfl, hother⟩
    funext w
    by_cases h : ∃ k, e k = w
    · obtain ⟨k, rfl⟩ := h
      exact (patched_picked e x (y ∘ e) k).symm
    · have h' : ∀ k, e k ≠ w := fun k hk => h ⟨k, hk⟩
      rw [patched_other e x _ h', hother w h']

theorem patched_patched (u v : Basis κ) : patched e (patched e x u) v = patched e x v := by
  rw [eq_patched_iff]
  refine ⟨patched_comp e _ v, fun w h => ?_⟩
  rw [patched_other e _ v h, patched_other e x u h]

variable [DecidableEq κ] [DecidableEq ω]

theorem patched_update (k : κ) (b : Bool) :
    patched e x (Function.update (x ∘ e) k b) = Function.update x (e k) b := by
  symm
  rw [eq_patched_iff]
  refine ⟨Function.update_comp_eq_of_injective x e.injective k b, fun w h => ?_⟩
  rw [Function.update_of_ne (h k).symm]

theorem patched_flipIf (c t : κ) :
    patched e x (flipIf c t (x ∘ e)) = flipIf (e c) (e t) x := by
  by_cases hc : x (e c)
  · rw [flipIf, flipIf, Function.comp_apply, if_pos hc, if_pos hc, patched_update]
    rfl
  · rw [flipIf, flipIf, Function.comp_apply, if_neg hc, if_neg hc]
    exact ((eq_patched_iff e x _ x).2 ⟨rfl, fun _ _ => rfl⟩).symm

end

/-! ## embedded operators -/

section
variable [Fintype κ] [DecidableEq κ] [Fintype ω] [DecidableEq ω] (e : κ ↪ ω)

/-- the operator `m` on the wires that `e` picks, the identity on the others -/
def embedded (m : Operator κ) : Operator ω :=
  of fun x y => if ∀ w, (∀ k, e k ≠ w) → x w = y w then m (x ∘ e) (y ∘ e) else 0

/-- on the slice of a state through `x` -/
theorem embedded_mulVec (m : Operator κ) (ψ : State ω) (x : Basis ω) :
    (embedded e m *ᵥ ψ) x = (m *ᵥ fun v => ψ (patched e x v)) (x ∘ e) := by
  have hy (y : Basis ω) :
      (if ∀ w, (∀ k, e k ≠ w) → x w = y w then m (x ∘ e) (y ∘ e) else 0) * ψ y
        = ∑ v, if y = patched e x v then m (x ∘ e) v * ψ y else 0 := by
    by_cases h : ∀ w, (∀ k, e k ≠ w) → x w = y w
    · -- the basis state `y` is in the slice, at its own values
      have hv (v : Basis κ) : y = patched e x v ↔ y ∘ e = v := by
        rw [eq_patched_iff]
        exact and_iff_left fun w hw => (h w hw).symm
      simp only [if_pos h, hv, Finset.sum_ite_eq, Finset.mem_univ, if_true]
    · rw [if_neg h, zero_mul, Finset.sum_eq_zero]
      intro v _
      rw [if_neg]
      intro hv
      exact h fun w hw => (((eq_patched_iff e x v y).1 hv).2 w hw).symm
  simp only [mulVec, dotProduct, embedded, of_apply, hy]
  rw [Finset.sum_comm]
  simp only [Finset.sum_ite_eq', Finset.mem_univ, if_true]

theorem embedded_one : embedded e 1 = 1 := by
  apply operator_ext
  intro ψ
  funext x
  rw [embedded_mulVec, one_mulVec, one_mulVec]
  exact congrArg ψ ((eq_patched_iff e x _ x).2 ⟨rfl, fun _ _ => rfl⟩).symm

theorem embedded_mul (m m' : Operator κ) :
    embedded e (m * m') = embedded e m * embedded e m' := by
  apply operator_ext
  intro ψ
  funext x
  have hslice : (fun u => (embedded e m' *ᵥ ψ) (patched e x u))
      = m' *ᵥ fun v => ψ (patched e x v) := by
    funext u
    rw [embedded_mulVec, patched_comp]
    simp only [patched_patched]
  rw [← mulVec_mulVec, embedded_mulVec e m, hslice, embedded_mulVec, mulVec_mulVec]

theorem onWire_map (m : Matrix Bool Bool ℂ) (q : κ) :
    onWire m (e q) = embedded e (onWire m q) := by
  apply operator_ext
  intro ψ
  funext x
  rw [embedded_mulVec, onWire_mulVec, onWire_mulVec]
  simp only [patched_update, Function.comp_apply]

theorem controlledNot_map (c t : κ) :
    controlledNot (e c) (e t) = embedded e (controlledNot c t) := by
  apply operator_ext
  intro ψ
  funext x
  rw [embedded_mulVec, controlledNot_mulVec, controlledNot_mulVec, patched_flipIf]

end

end Quantum

open Quantum

variable [Fintype κ] [DecidableEq κ] [Fintype ω] [DecidableEq ω]

/-- a gate on picked wires is the gate, embedded -/
theorem Gate.operator_map (e : κ ↪ ω) (g : Gate ℝ κ) :
    (g.map e).operator = embedded e g.operator := by
  cases g with
  | h q => exact onWire_map e _ q
  | x q => exact onWire_map e _ q
  | cx control target => exact controlledNot_map e control target
  | u1 lam q => exact onWire_map e _ q
  | u2 phi lam q => exact onWire_map e _ q
  | u3 theta phi lam q => exact onWire_map e _ q

namespace Quantum

theorem gatesOperator_append (gs gs' : List (Gate ℝ ω)) :
    gatesOperator (gs ++ gs') = gatesOperator gs' * gatesOperator gs := by
  induction gs with
  | nil => rw [List.nil_append, gatesOperator, mul_one]
  | cons g gs ih => rw [List.cons_append, gatesOperator, ih, gatesOperator, mul_assoc]

theorem gatesOperator_map (e : κ ↪ ω) (gs : List (Gate ℝ κ)) :
    gatesOperator (gs.map (Gate.map e)) = embedded e (gatesOperator gs) := by
  induction gs with
  | nil => exact (embedded_one e).symm
  | cons g gs ih =>
    rw [List.map_cons, gatesOperator, ih, g.operator_map, gatesOperator, embedded_mul]

end Quantum

end

end CircuitBench
