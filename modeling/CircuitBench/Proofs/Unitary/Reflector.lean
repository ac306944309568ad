import Mathlib

/-!
# Reflectors

The reflections of the Householder algorithm as complex matrices.  For a column `x` and an entry `k`
the reflector is `1 - tau v vᴴ`, with a `tau` that need not be real and a `v` that begins at `k`; a
column with zeros below a real entry has the identity.  Whenever the formulas are used, their
divisors are not zero (`beta_ne_zero`, `gap_ne_zero`), and the reflector is unitary
(`reflector_mem_unitaryGroup`).  Its adjoint clears the end of the column
(`adjoint_reflector_mulVec`).

`unitaryFactor a` is the product of the reflectors of all columns, each for the matrix that the ones
before it leave.  It is unitary, and its adjoint makes `a` upper triangular.
-/

namespace CircuitBench.Unitary

open Matrix

noncomputable section

variable {n : Nat}

/-- zeros below a real entry -/
def Reduced (x : Fin n → ℂ) (k : Fin n) : Prop := (∀ i, k < i → x i = 0) ∧ (x k).im = 0

instance (x : Fin n → ℂ) (k : Fin n) : Decidable (Reduced x k) :=
  inferInstanceAs (Decidable ((∀ i, k < i → x i = 0) ∧ (x k).im = 0))

/-- the length of the column from entry `k` on -/
def tailLength (x : Fin n → ℂ) (k : Fin n) : ℝ := √(∑ i ∈ Finset.Ici k, Complex.normSq (x i))

/-- the sign of a real number, a positive one for zero -/
def signOf (t : ℝ) : ℝ := if t < 0 then -1 else 1

def beta (x : Fin n → ℂ) (k : Fin n) : ℝ := -signOf (x k).re * tailLength x k

def tau (x : Fin n → ℂ) (k : Fin n) : ℂ :=
  ⟨(beta x k - (x k).re) / beta x k, -(x k).im / beta x k⟩

def direction (x : Fin n → ℂ) (k : Fin n) : Fin n → ℂ :=
  fun i => if i < k then 0 else if i = k then 1 else x i / (x k - beta x k)

/-- the matrix `1 - t v vᴴ` -/
def mirror (t : ℂ) (v : Fin n → ℂ) : Matrix (Fin n) (Fin n) ℂ := 1 - t • vecMulVec v (star v)

def reflector (x : Fin n → ℂ) (k : Fin n) : Matrix (Fin n) (Fin n) ℂ :=
  if Reduced x k then 1 else mirror (tau x k) (direction x k)

/-! ## mirrors -/

theorem conjTranspose_mirror (t : ℂ) (v : Fin n → ℂ) : (mirror t v)ᴴ = mirror (star t) v := by
  rw [mirror, conjTranspose_sub, conjTranspose_one, conjTranspose_smul, conjTranspose_vecMulVec,
    star_star, mirror]

theorem mirror_mulVec (t : ℂ) (v y : Fin n → ℂ) :
    mirror t v *ᵥ y = y - (t * (star v ⬝ᵥ y)) • v := by
  rw [mirror, sub_mulVec, one_mulVec, smul_mulVec, vecMulVec_mulVec, op_smul_eq_smul, smul_smul]

theorem mirror_mul_mirror (s t : ℂ) (v : Fin n → ℂ) :
    mirror s v * mirror t v = mirror (s + t - s * t * (star v ⬝ᵥ v)) v := by
  simp only [mirror, mul_sub, sub_mul, one_mul, mul_one, smul_mul_smul_comm,
    vecMulVec_mul_vecMulVec, vecMulVec_smul, smul_smul, sub_smul, add_smul]
  abel

theorem mirror_mem_unitaryGroup {t : ℂ} {v : Fin n → ℂ}
    (h : t + star t = t * star t * (star v ⬝ᵥ v)) : mirror t v ∈ unitaryGroup (Fin n) ℂ := by
  rw [mem_unitaryGroup_iff, star_eq_conjTranspose, conjTranspose_mirror, mirror_mul_mirror, h,
    sub_self, mirror, zero_smul, sub_zero]

theorem det_mirror (t : ℂ) (v : Fin n → ℂ) : (mirror t v).det = 1 - t * (star v ⬝ᵥ v) := by
  have hcol : mirror t v = 1 + replicateCol Unit (-t • v) * replicateRow Unit (star v) := by
    rw [mirror, ← vecMulVec_eq, smul_vecMulVec, neg_smul, sub_eq_add_neg]
  rw [hcol, det_one_add_replicateCol_mul_replicateRow, dotProduct_smul, smul_eq_mul]
  ring

/-! ## the numbers of a reflector -/

theorem star_mul_self_eq (z : ℂ) : star z * z = (Complex.normSq z : ℂ) :=
  Complex.normSq_eq_conj_mul_self.symm

theorem signOf_mul_self (t : ℝ) : signOf t * signOf t = 1 := by
  unfold signOf
  split <;> norm_num

/-- the sign is the one against which nothing is cancelled -/
theorem signOf_mul_nonneg (t : ℝ) : 0 ≤ signOf t * t := by
  unfold signOf
  split <;> linarith

section
variable (x : Fin n → ℂ) (k : Fin n)

theorem beta_mul_self : beta x k * beta x k = ∑ i ∈ Finset.Ici k, Complex.normSq (x i) := by
  have hsum : 0 ≤ ∑ i ∈ Finset.Ici k, Complex.normSq (x i) :=
    Finset.sum_nonneg fun i _ => Complex.normSq_nonneg (x i)
  calc beta x k * beta x k
      = signOf (x k).re * signOf (x k).re * (tailLength x k * tailLength x k) := by
        rw [beta]
        ring
    _ = ∑ i ∈ Finset.Ici k, Complex.normSq (x i) := by
        rw [signOf_mul_self, one_mul, tailLength, Real.mul_self_sqrt hsum]

/-- what lies below the entry makes up for the length -/
theorem sum_star_mul_self : ∑ i ∈ Finset.Ioi k, star (x i) * x i
    = (beta x k * beta x k - star (x k) * x k : ℂ) := by
  have hsum : ∑ i ∈ Finset.Ioi k, Complex.normSq (x i)
      = beta x k * beta x k - Complex.normSq (x k) := by
    rw [beta_mul_self, ← Finset.Ioi_insert, Finset.sum_insert Finset.notMem_Ioi_self,
      add_sub_cancel_left]
  rw [Finset.sum_congr rfl fun i _ => star_mul_self_eq (x i), ← Complex.ofReal_sum, hsum,
    star_mul_self_eq]
  push_cast
  rfl

theorem beta_mul_re_nonpos : beta x k * (x k).re ≤ 0 := by
  have hlength : 0 ≤ tailLength x k := Real.sqrt_nonneg _
  have hprod := mul_nonneg hlength (signOf_mul_nonneg (x k).re)
  rw [beta]
  linarith

/-- the entry of the column less the one that it is taken to -/
def gap : ℂ := x k - beta x k

theorem star_gap : star (gap x k) = star (x k) - beta x k := by
  rw [gap, star_sub]
  congr 1
  exact Complex.conj_ofReal _

theorem tau_eq : tau x k = -(gap x k / beta x k) := by
  rw [gap, ← neg_div, neg_sub]
  apply Complex.ext
  · rw [Complex.div_ofReal_re, Complex.sub_re, Complex.ofReal_re, tau]
  · rw [Complex.div_ofReal_im, Complex.sub_im, Complex.ofReal_im, zero_sub, tau]

theorem star_tau : star (tau x k) = -(star (gap x k) / beta x k) := by
  rw [tau_eq, star_neg, star_div₀]
  congr 2
  exact Complex.conj_ofReal _

theorem direction_self : direction x k k = 1 := by
  rw [direction, if_neg (lt_irrefl k), if_pos rfl]

theorem direction_of_lt {i : Fin n} (h : k < i) : direction x k i = x i / gap x k := by
  rw [direction, if_neg h.not_gt, if_neg h.ne', gap]

/-- only the end of a vector counts along the direction -/
theorem direction_dotProduct (y : Fin n → ℂ) : star (direction x k) ⬝ᵥ y
    = y k + (∑ i ∈ Finset.Ioi k, star (x i) * y i) / star (gap x k) := by
  have hsplit : star (direction x k) ⬝ᵥ y
      = ∑ i ∈ Finset.Ici k, star (direction x k i) * y i := by
    symm
    apply Finset.sum_subset (Finset.subset_univ _)
    intro i _ hi
    have hik : i < k := not_le.1 fun hki => hi (Finset.mem_Ici.2 hki)
    rw [direction, if_pos hik, star_zero, zero_mul]
  rw [hsplit, ← Finset.Ioi_insert, Finset.sum_insert Finset.notMem_Ioi_self, direction_self,
    star_one, one_mul, Finset.sum_div]
  congr 1
  apply Finset.sum_congr rfl
  intro i hi
  rw [direction_of_lt x k (Finset.mem_Ioi.1 hi), star_div₀]
  ring

end

/-! ## reflectors -/

section
variable {x : Fin n → ℂ} {k : Fin n} (h : ¬ Reduced x k)
include h

theorem beta_ne_zero : beta x k ≠ 0 := by
  intro h0
  have hsum := beta_mul_self x k
  rw [h0, mul_zero, eq_comm, Finset.sum_eq_zero_iff_of_nonneg
    fun i _ => Complex.normSq_nonneg (x i)] at hsum
  have hzero (i : Fin n) (hi : k ≤ i) : x i = 0 :=
    Complex.normSq_eq_zero.1 (hsum i (Finset.mem_Ici.2 hi))
  refine h ⟨fun i hi => hzero i hi.le, ?_⟩
  rw [hzero k le_rfl, Complex.zero_im]

theorem gap_ne_zero : gap x k ≠ 0 := by
  intro h0
  have hre : (x k).re = beta x k := by
    rw [sub_eq_zero.1 h0, Complex.ofReal_re]
  have hneg := beta_mul_re_nonpos x k
  rw [hre] at hneg
  have hpos := mul_self_pos.2 (beta_ne_zero h)
  linarith

theorem direction_dotProduct_self : star (direction x k) ⬝ᵥ direction x k
    = -(beta x k * (gap x k + star (gap x k)) / (gap x k * star (gap x k))) := by
  have hd := gap_ne_zero h
  have hd' : star (gap x k) ≠ 0 := star_ne_zero.2 hd
  have hsum : ∑ i ∈ Finset.Ioi k, star (x i) * direction x k i
      = (beta x k * beta x k - star (x k) * x k) / gap x k := by
    rw [← sum_star_mul_self, Finset.sum_div]
    apply Finset.sum_congr rfl
    intro i hi
    rw [direction_of_lt x k (Finset.mem_Ioi.1 hi), mul_div_assoc]
  rw [direction_dotProduct, direction_self, hsum]
  field_simp
  rw [star_gap, gap]
  ring

theorem direction_dotProduct_column :
    star (direction x k) ⬝ᵥ x = -(beta x k * gap x k / star (gap x k)) := by
  have hd : star (gap x k) ≠ 0 := star_ne_zero.2 (gap_ne_zero h)
  rw [direction_dotProduct, sum_star_mul_self]
  field_simp
  rw [star_gap, gap]
  ring

/-- the real part of `tau` fits the length of the direction, though `tau` is not real -/
theorem tau_add_star_tau : tau x k + star (tau x k)
    = tau x k * star (tau x k) * (star (direction x k) ⬝ᵥ direction x k) := by
  have hb : (beta x k : ℂ) ≠ 0 := Complex.ofReal_ne_zero.2 (beta_ne_zero h)
  have hd := gap_ne_zero h
  have hd' : star (gap x k) ≠ 0 := star_ne_zero.2 hd
  rw [direction_dotProduct_self h, star_tau, tau_eq]
  field_simp
  ring

/-- the adjoint takes the gap away along the direction -/
theorem adjoint_mirror_mulVec :
    (mirror (tau x k) (direction x k))ᴴ *ᵥ x = x - gap x k • direction x k := by
  have hb : (beta x k : ℂ) ≠ 0 := Complex.ofReal_ne_zero.2 (beta_ne_zero h)
  have hd : star (gap x k) ≠ 0 := star_ne_zero.2 (gap_ne_zero h)
  have hgap : star (tau x k) * (star (direction x k) ⬝ᵥ x) = gap x k := by
    rw [direction_dotProduct_column h, star_tau]
    field_simp
  rw [conjTranspose_mirror, mirror_mulVec, hgap]

end

theorem reflector_mem_unitaryGroup (x : Fin n → ℂ) (k : Fin n) :
    reflector x k ∈ unitaryGroup (Fin n) ℂ := by
  unfold reflector
  split
  · exact one_mem _
  · rename_i h
    exact mirror_mem_unitaryGroup (tau_add_star_tau h)

/-- below entry `k` nothing is left of the column -/
theorem adjoint_reflector_mulVec (x : Fin n → ℂ) {k i : Fin n} (hi : k < i) :
    ((reflector x k)ᴴ *ᵥ x) i = 0 := by
  unfold reflector
  split
  · rename_i h
    rw [conjTranspose_one, one_mulVec, h.1 i hi]
  · rename_i h
    rw [adjoint_mirror_mulVec h, Pi.sub_apply, Pi.smul_apply, direction_of_lt x k hi, smul_eq_mul,
      mul_div_cancel₀ _ (gap_ne_zero h), sub_self]

/-- a vector that ends before entry `k` stays as it is -/
theorem adjoint_reflector_mulVec_of_zero (x : Fin n → ℂ) {k : Fin n} {y : Fin n → ℂ}
    (hy : ∀ i, k ≤ i → y i = 0) : (reflector x k)ᴴ *ᵥ y = y := by
  unfold reflector
  split
  · rw [conjTranspose_one, one_mulVec]
  · have hsum : ∑ i ∈ Finset.Ioi k, star (x i) * y i = 0 := by
      apply Finset.sum_eq_zero
      intro i hi
      rw [hy i (Finset.mem_Ioi.1 hi).le, mul_zero]
    rw [conjTranspose_mirror, mirror_mulVec, direction_dotProduct, hy k le_rfl, hsum, zero_div,
      add_zero, mul_zero, zero_smul, sub_zero]

/-! ## stretched columns -/

section
variable (x : Fin n → ℂ) (k : Fin n) {c : ℝ} (hc : 0 < c)
include hc

theorem beta_stretched : beta (fun i => x i * c) k = beta x k * c := by
  have hsign : signOf ((x k).re * c) = signOf (x k).re := by
    unfold signOf
    simp only [mul_neg_iff, hc, hc.not_gt, and_true, and_false, false_or]
  have hsum : ∑ i ∈ Finset.Ici k, Complex.normSq (x i * c)
      = (∑ i ∈ Finset.Ici k, Complex.normSq (x i)) * (c * c) := by
    rw [Finset.sum_mul]
    apply Finset.sum_congr rfl
    intro i _
    rw [Complex.normSq_mul, Complex.normSq_ofReal]
  rw [beta, beta, tailLength, tailLength, Complex.re_mul_ofReal, hsign, hsum,
    Real.sqrt_mul' _ (mul_self_nonneg c), Real.sqrt_mul_self hc.le]
  ring

theorem gap_stretched : gap (fun i => x i * c) k = gap x k * c := by
  rw [gap, beta_stretched x k hc, gap]
  push_cast
  ring

theorem tau_stretched : tau (fun i => x i * c) k = tau x k := by
  have hc0 : (c : ℂ) ≠ 0 := Complex.ofReal_ne_zero.2 hc.ne'
  rw [tau_eq, tau_eq, gap_stretched x k hc, beta_stretched x k hc, Complex.ofReal_mul,
    mul_div_mul_right _ _ hc0]

theorem direction_stretched : direction (fun i => x i * c) k = direction x k := by
  have hc0 : (c : ℂ) ≠ 0 := Complex.ofReal_ne_zero.2 hc.ne'
  funext i
  have hquotient : x i * c / gap (fun i => x i * c) k = x i / gap x k := by
    rw [gap_stretched x k hc, mul_div_mul_right _ _ hc0]
  unfold direction
  split_ifs
  · rfl
  · rfl
  · exact hquotient

theorem reduced_stretched_iff : Reduced (fun i => x i * c) k ↔ Reduced x k := by
  have hc0 : (c : ℂ) ≠ 0 := Complex.ofReal_ne_zero.2 hc.ne'
  unfold Reduced
  simp only [mul_eq_zero, hc0, or_false, Complex.im_mul_ofReal, hc.ne']

end

/-! ## all columns -/

/-- the product of the reflectors of the columns `ks`, each for the matrix that the ones before it
leave -/
def factorFrom (a : Matrix (Fin n) (Fin n) ℂ) : List (Fin n) → Matrix (Fin n) (Fin n) ℂ
  | [] => 1
  | k :: ks => reflector (a.col k) k * factorFrom ((reflector (a.col k) k)ᴴ * a) ks

def unitaryFactor (a : Matrix (Fin n) (Fin n) ℂ) : Matrix (Fin n) (Fin n) ℂ :=
  factorFrom a (List.finRange n)

theorem factorFrom_mem_unitaryGroup (a : Matrix (Fin n) (Fin n) ℂ) (ks : List (Fin n)) :
    factorFrom a ks ∈ unitaryGroup (Fin n) ℂ := by
  induction ks generalizing a with
  | nil => exact one_mem _
  | cons k ks ih => exact mul_mem (reflector_mem_unitaryGroup _ k) (ih _)

/-- a step clears its column and keeps those before it clear -/
theorem col_step_eq_zero {a : Matrix (Fin n) (Fin n) ℂ} {k j : Fin n} (hj : j ≤ k)
    (hclear : j < k → ∀ i, j < i → a i j = 0) :
    ∀ i, j < i → ((reflector (a.col k) k)ᴴ * a) i j = 0 := by
  intro i hi
  rcases hj.lt_or_eq with hlt | rfl
  · have hstay := adjoint_reflector_mulVec_of_zero (a.col k) (y := a.col j)
      fun i hki => hclear hlt i (hlt.trans_le hki)
    have hentry := congrFun hstay i
    exact hentry.trans (hclear hlt i hi)
  · exact adjoint_reflector_mulVec (a.col j) hi

theorem factorFrom_triangular (a : Matrix (Fin n) (Fin n) ℂ) (front ks : List (Fin n))
    (hall : front ++ ks = List.finRange n) (hclear : ∀ j ∈ front, ∀ i, j < i → a i j = 0) :
    ∀ j i, j < i → ((factorFrom a ks)ᴴ * a) i j = 0 := by
  induction ks generalizing a front with
  | nil =>
    intro j i hi
    have hj : j ∈ front := by
      rw [← List.append_nil front, hall]
      exact List.mem_finRange j
    rw [factorFrom, conjTranspose_one, one_mul]
    exact hclear j hj i hi
  | cons k ks ih =>
    have hsorted : (front ++ k :: ks).Pairwise (· < ·) := by
      rw [hall]
      exact List.pairwise_lt_finRange n
    have hbefore (j : Fin n) (hj : j ∈ front) : j < k :=
      (List.pairwise_append.1 hsorted).2.2 j hj k List.mem_cons_self
    have hrest := ih ((reflector (a.col k) k)ᴴ * a) (front ++ [k]) (by rw [← hall]; simp) ?_
    · rwa [factorFrom, conjTranspose_mul, Matrix.mul_assoc]
    · intro j hj
      rcases List.mem_append.1 hj with hj | hj
      · exact col_step_eq_zero (hbefore j hj).le fun _ => hclear j hj
      · rw [List.mem_singleton.1 hj]
        exact col_step_eq_zero le_rfl fun hlt => absurd hlt (lt_irrefl k)

/-- the matrix is the unitary factor times an upper triangular one -/
theorem unitaryFactor_triangular (a : Matrix (Fin n) (Fin n) ℂ) :
    ((unitaryFactor a)ᴴ * a).BlockTriangular id :=
  fun i j hi => factorFrom_triangular a [] (List.finRange n) rfl (by simp) j i hi

end

end CircuitBench.Unitary
