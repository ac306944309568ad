import CircuitBench.Proofs.Quantum.Operators

/-!
# Product states

A product state gives every wire a state of its own.  Gates on one wire keep product states, and so
does a controlled negation whose target is an eigenvector of the negation: the eigenvalue is kicked
back to the control (`controlledNot_mulVec_tensor`).

* `ket b`         the wire holds the value `b`;
* `slanted b`     the two values with equal weight, the sign of the value one given by `b`;
* `tensor φ`      the product of the states `φ w`;
* `weight ψ`      the squared length of a state.
-/

namespace CircuitBench.Quantum

open Matrix Complex

noncomputable section

/-! ## states of one wire -/

def ket (b : Bool) : Bool → ℂ := fun a => if a = b then 1 else 0

section
attribute [local instance] atLeastTwo_two

/-- the sum of the two values, or their difference if `b` holds, with weight one -/
def slanted (b : Bool) : Bool → ℂ := fun a => (if a && b then -1 else 1) / (√2 : ℂ)

end

theorem hadamard_mulVec_ket (b : Bool) : hadamard *ᵥ ket b = slanted b := by
  funext a
  simp [mulVec, dotProduct, hadamard, ket, slanted]

theorem hadamard_mulVec_slanted (b : Bool) : hadamard *ᵥ slanted b = ket b := by
  rw [← hadamard_mulVec_ket, mulVec_mulVec]
  have h : hadamard * hadamard = 1 := by
    have hu := mem_unitaryGroup_iff.1 hadamard_mem_unitaryGroup
    have hs : star hadamard = hadamard := by
      ext a c
      cases a <;> cases c <;> simp [hadamard]
    rwa [hs] at hu
  rw [h, one_mulVec]

theorem negation_mulVec_ket (b : Bool) : negation *ᵥ ket b = ket (!b) := by
  funext a
  cases a <;> cases b <;> simp [mulVec, dotProduct, negation, ket]

theorem slanted_not (b a : Bool) : slanted b (!a) = (if b then -1 else 1) * slanted b a := by
  cases a <;> cases b <;> simp [slanted, neg_div]

theorem eq_of_ket_ne_zero {b a : Bool} (h : ket b a ≠ 0) : a = b := by
  by_contra hne
  exact h (if_neg hne)

theorem sum_normSq_ket (b : Bool) : ∑ a, normSq (ket b a) = 1 := by
  cases b <;> simp [ket]

theorem normSq_slanted (b a : Bool) : normSq (slanted b a) = 1 / 2 := by
  have h : normSq (√2 : ℂ) = 2 := by rw [normSq_ofReal, Real.mul_self_sqrt (by norm_num)]
  rw [slanted, map_div₀, h]
  split <;> simp

theorem sum_normSq_slanted (b : Bool) : ∑ a, normSq (slanted b a) = 1 := by
  simp only [normSq_slanted, Fintype.sum_bool]
  norm_num

/-! ## products -/

section
variable {ω : Type} [Fintype ω]

/-- every wire in a state of its own -/
def tensor (φ : ω → Bool → ℂ) : State ω := fun x => ∏ w, φ w (x w)

theorem single_eq_tensor (x : Basis ω) : Pi.single x 1 = tensor fun w => ket (x w) := by
  funext y
  by_cases h : y = x
  · subst h
    simp [tensor, ket]
  · obtain ⟨w, hw⟩ := Function.ne_iff.1 h
    rw [Pi.single_eq_of_ne h, tensor, Finset.prod_eq_zero (Finset.mem_univ w)]
    simp [ket, hw]

theorem factor_ne_zero {φ : ω → Bool → ℂ} {x : Basis ω} (h : tensor φ x ≠ 0) (w : ω) :
    φ w (x w) ≠ 0 :=
  Finset.prod_ne_zero_iff.1 h w (Finset.mem_univ w)

variable [DecidableEq ω]

/-- the squared length of a state -/
def weight (ψ : State ω) : ℝ := ∑ x, normSq (ψ x)

/-- one factor taken out of the product -/
theorem tensor_eq_mul (φ : ω → Bool → ℂ) (q : ω) (x : Basis ω) :
    tensor φ x = φ q (x q) * ∏ w ∈ Finset.univ.erase q, φ w (x w) :=
  (Finset.mul_prod_erase _ _ (Finset.mem_univ q)).symm

theorem prod_erase_update (φ : ω → Bool → ℂ) (q : ω) (x : Basis ω) (b : Bool) :
    ∏ w ∈ Finset.univ.erase q, φ w (Function.update x q b w)
      = ∏ w ∈ Finset.univ.erase q, φ w (x w) := by
  apply Finset.prod_congr rfl
  intro w hw
  rw [Function.update_of_ne (Finset.ne_of_mem_erase hw)]

theorem prod_erase_update_factor (φ : ω → Bool → ℂ) (q : ω) (f : Bool → ℂ) (x : Basis ω) :
    ∏ w ∈ Finset.univ.erase q, Function.update φ q f w (x w)
      = ∏ w ∈ Finset.univ.erase q, φ w (x w) := by
  apply Finset.prod_congr rfl
  intro w hw
  rw [Function.update_of_ne (Finset.ne_of_mem_erase hw)]

theorem tensor_update_value (φ : ω → Bool → ℂ) (q : ω) (x : Basis ω) (b : Bool) :
    tensor φ (Function.update x q b) = φ q b * ∏ w ∈ Finset.univ.erase q, φ w (x w) := by
  rw [tensor_eq_mul φ q, prod_erase_update, Function.update_self]

theorem tensor_update_factor (φ : ω → Bool → ℂ) (q : ω) (f : Bool → ℂ) (x : Basis ω) :
    tensor (Function.update φ q f) x
      = f (x q) * ∏ w ∈ Finset.univ.erase q, φ w (x w) := by
  rw [tensor_eq_mul _ q, prod_erase_update_factor, Function.update_self]

/-- a gate on one wire changes the factor of that wire -/
theorem onWire_mulVec_tensor (m : Matrix Bool Bool ℂ) (q : ω) (φ : ω → Bool → ℂ) :
    onWire m q *ᵥ tensor φ = tensor (Function.update φ q (m *ᵥ φ q)) := by
  funext x
  rw [onWire_mulVec, tensor_update_factor]
  simp only [tensor_update_value, mulVec, dotProduct, Finset.sum_mul, mul_assoc]

/-- **Kickback.**  If flipping the target multiplies its factor by `ε`, the controlled negation
multiplies the amplitude of one in the control by `ε` and does nothing else. -/
theorem controlledNot_mulVec_tensor (c t : ω) (φ : ω → Bool → ℂ) (ε : ℂ)
    (ht : ∀ b, φ t (!b) = ε * φ t b) :
    controlledNot c t *ᵥ tensor φ
      = tensor (Function.update φ c fun b => (if b then ε else 1) * φ c b) := by
  funext x
  rw [controlledNot_mulVec, tensor_update_factor, mul_assoc, ← tensor_eq_mul φ c]
  by_cases hc : x c
  · rw [flipIf, if_pos hc, if_pos hc, tensor_update_value, ht, mul_assoc, ← tensor_eq_mul φ t]
  · rw [flipIf, if_neg hc, if_neg hc, one_mul]

/-- a controlled phase turns the factor of one wire if the other one holds one -/
theorem controlledPhase_mulVec_tensor (l : ℝ) {a b : ω} (h : a ≠ b) (φ : ω → Bool → ℂ) (v : Bool)
    (ha : φ a = ket v) :
    gatesOperator (controlledPhase l a b) *ᵥ tensor φ
      = tensor (Function.update φ b fun c => (if v && c then exp (l * I) else 1) * φ b c) := by
  funext x
  rw [controlledPhase_mulVec l h, tensor_update_factor, mul_assoc, ← tensor_eq_mul φ b]
  by_cases hx : tensor φ x = 0
  · rw [hx, mul_zero, mul_zero]
  · have hv := factor_ne_zero hx a
    rw [ha] at hv
    rw [eq_of_ket_ne_zero hv]

/-! ## layers -/

/-- the same gate on different wires -/
theorem gatesOperator_layer (g : ω → Gate ℝ ω) (m : Matrix Bool Bool ℂ)
    (hg : ∀ w, (g w).operator = onWire m w) (ws : List ω) (hws : ws.Nodup) (φ : ω → Bool → ℂ) :
    gatesOperator (ws.map g) *ᵥ tensor φ
      = tensor fun w => if w ∈ ws then m *ᵥ φ w else φ w := by
  induction ws generalizing φ with
  | nil => simp [gatesOperator]
  | cons q ws ih =>
    obtain ⟨hq, hws⟩ := List.nodup_cons.1 hws
    rw [List.map_cons, gatesOperator_mulVec_cons, hg, onWire_mulVec_tensor, ih hws]
    congr 1
    funext w
    by_cases h : w = q
    · subst h
      simp [hq]
    · simp [h]

/-- many controls on one target that holds a slanted state: each control with the sign `-1`
has its own sign changed -/
theorem gatesOperator_kickback (t : ω) (ws : List ω) (hws : ws.Nodup) (ht : t ∉ ws)
    (φ : ω → Bool → ℂ) (b : Bool) (hb : φ t = slanted b) :
    gatesOperator (ws.map fun w => .cx w t) *ᵥ tensor φ
      = tensor fun w => if w ∈ ws then fun a => (if a && b then -1 else 1) * φ w a else φ w := by
  induction ws generalizing φ with
  | nil => simp [gatesOperator]
  | cons q ws ih =>
    obtain ⟨hq, hws⟩ := List.nodup_cons.1 hws
    obtain ⟨htq, htws⟩ := not_or.1 (fun h => ht (List.mem_cons.2 h))
    have hk := controlledNot_mulVec_tensor q t φ (if b then -1 else 1)
      fun a => by rw [hb, slanted_not]
    rw [List.map_cons, gatesOperator_mulVec_cons, Gate.operator, hk,
      ih hws htws _ (by rw [Function.update_of_ne htq, hb])]
    congr 1
    funext w
    by_cases h : w = q
    · subst h
      funext a
      cases a <;> cases b <;> simp [hq]
    · simp [h]

/-! ## lengths -/

theorem weight_tensor (φ : ω → Bool → ℂ) : weight (tensor φ) = ∏ w, ∑ b, normSq (φ w b) := by
  rw [Finset.prod_univ_sum, Fintype.piFinset_univ, weight]
  simp only [tensor, map_prod]

end

end

end CircuitBench.Quantum
