import CircuitBench.Proofs.Unitary.Drawing
import CircuitBench.Proofs.Unitary.Exact
import CircuitBench.Proofs.Unitary.Reflector

/-!
# Drawn unitaries are special

On exact numbers the algorithm computes the reflectors of the columns (`reflection_exact`), their
product and its determinant (`factor_exact`), and every number on the way is defined.  The product
is unitary, so the principal root of its determinant has length one, and dividing by it leaves a
unitary of determinant one.  What is drawn is the same function of the matrix of the samples, on
machine numbers: `exact_factor_is_special`.
-/

namespace CircuitBench.Unitary

open Matrix Exact
open Generate.Volume (Factors drawUnitary entryOf matrixOf)

noncomputable section

variable {n : Nat}

/-! ## one reflection -/

theorem get_ofFn {α : Type} (f : Fin n → α) (i : Fin n) : (Vector.ofFn f).get i = f i := by
  simp only [Vector.get, Vector.toArray_ofFn, Array.getElem_ofFn]
  rfl

theorem sum_parts (x : Fin n → ℂ) (k : Fin n) :
    ((List.ofFn fun i => if i < k then [] else [(x i).re, (x i).im]).flatten.map
        fun t => t * t).sum
      = ∑ i ∈ Finset.Ici k, Complex.normSq (x i) := by
  have hparts (i : Fin n) : ((if i < k then [] else [(x i).re, (x i).im]).map fun t => t * t).sum
      = if k ≤ i then Complex.normSq (x i) else 0 := by
    by_cases hi : i < k
    · rw [if_pos hi, if_neg hi.not_ge]
      rfl
    · rw [if_neg hi, if_pos (not_lt.1 hi), Complex.normSq_apply]
      simp
  rw [List.map_flatten, List.sum_flatten, List.map_ofFn, List.map_ofFn, List.sum_ofFn]
  simp only [Function.comp_apply, hparts]
  rw [← Finset.sum_filter]
  congr 1
  ext i
  simp

theorem lengthFrom_exact (x : Fin n → ℂ) (k : Fin n) :
    lengthFrom (fun i => .exact (x i)) k = number (tailLength x k) := by
  have hparts : (List.ofFn fun i => if i < k then []
        else [(Cplx.exact (x i)).re, (Cplx.exact (x i)).im]).flatten
      = ((List.ofFn fun i => if i < k then [] else [(x i).re, (x i).im]).flatten).map number := by
    rw [List.map_flatten, List.map_ofFn]
    congr 2
    funext i
    rw [Function.comp_apply]
    split <;> rfl
  rw [lengthFrom, hparts, norm_map, sum_parts, tailLength]

theorem beta_exact (x : Fin n → ℂ) (k : Fin n) :
    (if Scalar.isNegative (number (x k).re) then number (tailLength x k)
      else -number (tailLength x k)) = number (beta x k) := by
  unfold beta signOf
  by_cases h : (x k).re < 0
  · have hneg : Scalar.isNegative (number (x k).re) = true := decide_eq_true h
    rw [if_pos hneg, if_pos h, neg_neg, one_mul]
  · have hneg : Scalar.isNegative (number (x k).re) = false := decide_eq_false h
    rw [hneg, if_neg Bool.false_ne_true, if_neg h, neg_number, neg_one_mul]

/-- a reflection with defined numbers -/
def Reflection.exact (t : ℂ) (v : Fin n → ℂ) : Reflection n Exact :=
  ⟨.exact t, Vector.ofFn fun i => .exact (v i)⟩

theorem reflectionOf_exact {x : Fin n → ℂ} {k : Fin n} (h : ¬ Reduced x k) :
    reflectionOf (fun i => .exact (x i)) k = .exact (tau x k) (direction x k) := by
  have hgap : (⟨number (x k).re - number (beta x k), number (x k).im⟩ : Cplx Exact)
      = .exact (gap x k) := by
    rw [sub_number, Cplx.exact, gap, Complex.sub_re, Complex.sub_im, Complex.ofReal_re,
      Complex.ofReal_im, sub_zero]
  have htau : (⟨(number (beta x k) - number (x k).re) / number (beta x k),
      -number (x k).im / number (beta x k)⟩ : Cplx Exact) = .exact (tau x k) := by
    rw [sub_number, neg_number, div_number _ (beta_ne_zero h), div_number _ (beta_ne_zero h)]
    rfl
  unfold reflectionOf
  simp only [lengthFrom_exact, Cplx.re_exact, Cplx.im_exact, beta_exact, hgap, htau,
    Cplx.exact_inv (gap_ne_zero h)]
  rw [Reflection.exact]
  congr 2
  funext i
  unfold direction
  split_ifs
  · rfl
  · rfl
  · rw [Cplx.exact_mul, gap, div_eq_mul_inv]

theorem reflection_exact {a : Matrix (Fin n) (Fin n) ℂ} {k : Fin n} (h : ¬ Reduced (a.col k) k) :
    reflection (.exact a) k = .exact (tau (a.col k) k) (direction (a.col k) k) := by
  let c := stretching (tailLength (a.col k) k)
  have hc : 0 < c := stretching_pos _
  have hcolumn : (fun i => (Square.exact a).get i k) = fun i => .exact (a.col k i) := by
    funext i
    exact Square.get_exact a i k
  have hlength : Scalar.stretch (lengthFrom (fun i => (Square.exact a).get i k) k) = number c := by
    rw [hcolumn, lengthFrom_exact]
    rfl
  have hscaled : (fun i => ((Square.exact a).get i k).scale (number c))
      = fun i => .exact (a.col k i * c) := by
    funext i
    rw [Square.get_exact, Cplx.exact_scale]
    rfl
  unfold reflection
  dsimp only
  rw [hlength, hscaled, reflectionOf_exact fun hr => h ((reduced_stretched_iff _ k hc).1 hr),
    tau_stretched _ k hc, direction_stretched _ k hc]

theorem isReduced_exact (a : Matrix (Fin n) (Fin n) ℂ) (k : Fin n) :
    isReduced (.exact a) k = decide (Reduced (a.col k) k) := by
  have him : Scalar.isZero (Cplx.exact (a k k)).im = decide ((a k k).im = 0) := rfl
  rw [Bool.eq_iff_iff, decide_eq_true_iff, isReduced, Reduced, Bool.and_eq_true]
  simp only [Square.get_exact, Cplx.isZero_exact, him, List.all_eq_true, List.mem_ofFn,
    decide_eq_true_iff, forall_exists_index, forall_apply_eq_imp_iff, id_eq, Bool.or_eq_true]
  apply and_congr_left
  intro _
  apply forall_congr'
  intro i
  rw [← not_le]
  exact Decidable.or_iff_not_imp_left

/-! ## reflections and matrices -/

section
variable (t : ℂ) (v : Fin n → ℂ) (a : Matrix (Fin n) (Fin n) ℂ)

theorem tau_exact : (Reflection.exact t v).tau = .exact t := rfl

theorem get_v_exact (i : Fin n) : (Reflection.exact t v).v.get i = .exact (v i) := get_ofFn _ i

theorem adjointMul_exact :
    (Reflection.exact t v).adjointMul (.exact a) = .exact ((mirror t v)ᴴ * a) := by
  have hentry (i j : Fin n) : ((mirror t v)ᴴ * a) i j
      = a i j + v i * (-star t * ∑ l, star (v l) * a l j) := by
    have h := congrFun (mirror_mulVec (star t) v (a.col j)) i
    rw [← conjTranspose_mirror] at h
    refine h.trans ?_
    simp only [Pi.sub_apply, Pi.smul_apply, smul_eq_mul, dotProduct, Pi.star_apply, col_apply]
    ring
  unfold Reflection.adjointMul
  apply Square.of_eq_exact
  intro i j
  rw [hentry, get_ofFn]
  simp only [get_v_exact, tau_exact, Square.get_exact, Cplx.exact_conj, Cplx.exact_mul,
    Cplx.exact_sum, Cplx.exact_neg, Cplx.exact_add, Cplx.isZero_exact, decide_eq_true_iff]
  split_ifs with hw
  · rw [hw, mul_zero, mul_zero, add_zero]
  · rfl

theorem mulRight_exact :
    Reflection.mulRight (.exact a) (.exact t v) = .exact (a * mirror t v) := by
  have hentry (i j : Fin n) : (a * mirror t v) i j
      = a i j - t * ((∑ l, a i l * v l) * star (v j)) := by
    rw [mirror, mul_sub, mul_one, Matrix.mul_smul, mul_vecMulVec]
    rfl
  unfold Reflection.mulRight
  apply Square.of_eq_exact
  intro i j
  rw [hentry, get_ofFn]
  simp only [get_v_exact, tau_exact, Square.get_exact, Cplx.exact_conj, Cplx.exact_mul,
    Cplx.exact_sum, Cplx.exact_sub]

theorem det_exact : (Reflection.exact t v).det = .exact (mirror t v).det := by
  unfold Reflection.det
  simp only [get_v_exact, tau_exact, Cplx.exact_conj, Cplx.exact_mul, Cplx.exact_sum,
    Cplx.exact_one, Cplx.exact_sub, det_mirror]
  rfl

end

/-! ## all columns -/

/-- a column that needs no reflection has the identity for a reflector -/
theorem foldl_reflectionsFrom (a p : Matrix (Fin n) (Fin n) ℂ) (d : ℂ) (ks : List (Fin n)) :
    (reflectionsFrom (.exact a) ks).foldl Reflection.mulRight (.exact p)
        = .exact (p * factorFrom a ks) ∧
      (reflectionsFrom (.exact a) ks).foldl (fun d r => d.mul r.det) (Cplx.exact d)
        = .exact (d * (factorFrom a ks).det) := by
  induction ks generalizing a p d with
  | nil =>
    rw [factorFrom, det_one, mul_one, mul_one]
    exact ⟨rfl, rfl⟩
  | cons k ks ih =>
    rw [reflectionsFrom, isReduced_exact, factorFrom, reflector]
    by_cases h : Reduced (a.col k) k
    · rw [if_pos h, if_pos (decide_eq_true h), conjTranspose_one, one_mul, one_mul]
      exact ih a p d
    · rw [if_neg h, if_neg (by rw [decide_eq_false h]; exact Bool.false_ne_true)]
      simp only [reflection_exact h, adjointMul_exact, List.foldl_cons, mulRight_exact, det_exact,
        Cplx.exact_mul]
      rw [det_mul, ← mul_assoc, ← mul_assoc]
      exact ih _ _ _

theorem factor_exact (a : Matrix (Fin n) (Fin n) ℂ) :
    factor (.exact a) = (.exact (unitaryFactor a), .exact (unitaryFactor a).det) := by
  obtain ⟨hproduct, hdet⟩ := foldl_reflectionsFrom a 1 1 (List.finRange n)
  rw [one_mul] at hproduct hdet
  rw [factor, product, reflections, Square.exact_one, Cplx.exact_one, hproduct, hdet, unitaryFactor]

/-! ## the root of the determinant -/

theorem root_ne_zero {d : ℂ} (hd : d ≠ 0) : d ^ (1 / n : ℂ) ≠ 0 := by
  rw [Ne, Complex.cpow_eq_zero_iff]
  exact fun h => hd h.1

theorem normalized_exact (hn : n ≠ 0) (q : Matrix (Fin n) (Fin n) ℂ) {d : ℂ} (hd : d ≠ 0) :
    normalized (.exact q) (.exact d) = .exact ((d ^ (1 / n : ℂ))⁻¹ • q) := by
  unfold normalized
  apply Square.of_eq_exact
  intro i j
  rw [Square.get_exact, Cplx.exact_root hn, Cplx.exact_div _ (root_ne_zero hd),
    Matrix.smul_apply, smul_eq_mul, div_eq_inv_mul]

theorem root_pow (hn : n ≠ 0) (d : ℂ) : (d ^ (1 / n : ℂ)) ^ n = d := by
  rw [one_div, Complex.cpow_nat_inv_pow d hn]

theorem norm_root (hn : n ≠ 0) {d : ℂ} (hd : ‖d‖ = 1) : ‖d ^ (1 / n : ℂ)‖ = 1 := by
  rw [← pow_eq_one_iff_of_nonneg (norm_nonneg _) hn, ← norm_pow, root_pow hn, hd]

theorem mem_unitary_of_norm {z : ℂ} (hz : ‖z‖ = 1) : z ∈ unitary ℂ := by
  have hsq : star z * z = 1 := by
    rw [star_mul_self_eq, Complex.normSq_eq_norm_sq, hz, one_pow, Complex.ofReal_one]
  exact Unitary.mem_iff.2 ⟨hsq, by rw [mul_comm, hsq]⟩

theorem norm_det {q : Matrix (Fin n) (Fin n) ℂ} (hq : q ∈ unitaryGroup (Fin n) ℂ) :
    ‖q.det‖ = 1 :=
  CStarRing.norm_of_mem_unitary (det_of_mem_unitary hq)

theorem det_ne_zero {q : Matrix (Fin n) (Fin n) ℂ} (hq : q ∈ unitaryGroup (Fin n) ℂ) :
    q.det ≠ 0 := by
  intro h0
  have hnorm := norm_det hq
  rw [h0, norm_zero] at hnorm
  exact zero_ne_one hnorm

theorem inv_root_smul_mem (hn : n ≠ 0) {q : Matrix (Fin n) (Fin n) ℂ}
    (hq : q ∈ unitaryGroup (Fin n) ℂ) :
    (q.det ^ (1 / n : ℂ))⁻¹ • q ∈ specialUnitaryGroup (Fin n) ℂ := by
  have hinv : ‖(q.det ^ (1 / n : ℂ))⁻¹‖ = 1 := by
    rw [norm_inv, norm_root hn (norm_det hq), inv_one]
  refine mem_specialUnitaryGroup_iff.2 ⟨Unitary.smul_mem_of_mem (mem_unitary_of_norm hinv) hq, ?_⟩
  rw [det_smul, Fintype.card_fin, inv_pow, root_pow hn, inv_mul_cancel₀ (det_ne_zero hq)]

theorem special_exact (hn : n ≠ 0) (a : Matrix (Fin n) (Fin n) ℂ) :
    special (.exact a)
      = .exact (((unitaryFactor a).det ^ (1 / n : ℂ))⁻¹ • unitaryFactor a) := by
  rw [special, factor_exact]
  exact normalized_exact hn _ (det_ne_zero (factorFrom_mem_unitaryGroup a _))

/-! ## the samples -/

/-- the matrix of samples: the real parts row by row, and then the imaginary parts -/
def sampled (n : Nat) (xs : List ℝ) : Matrix (Fin n) (Fin n) ℂ :=
  .of fun i j => ⟨xs.getD (i * n + j) 0, xs.getD (n * n + (i * n + j)) 0⟩

theorem entryOf_exact (x y : ℝ) : entryOf (number x) (number y) = .exact ⟨x, y⟩ := by
  show (⟨number (x + (0 * y - 0)), number (0 + y)⟩ : Cplx Exact) = _
  rw [zero_mul, sub_zero, add_zero, zero_add]
  rfl

theorem matrixOf_exact (n : Nat) (xs : List ℝ) :
    matrixOf n (xs.map number) = .exact (sampled n xs) := by
  have hpart (k : Nat) : (xs.map number).toArray.getD k 0 = number (xs.getD k 0) := by
    rw [Array.getD_eq_getD_getElem?, List.getElem?_toArray, List.getElem?_map,
      List.getD_eq_getElem?_getD]
    cases xs[k]? <;> rfl
  apply Square.of_eq_exact
  intro i j
  rw [hpart, hpart, entryOf_exact]
  rfl

/-- **Drawn unitaries are special.**  A drawn unitary is `special` of the matrix of the samples.  On
exact numbers, for every matrix, that algorithm divides by no zero: the divisors of a reflector are
not zero, and neither is the root of the determinant.  It computes the product of the reflectors,
which is unitary and leaves an upper triangular matrix, and its determinant; the product divided by
the principal root is a unitary of determinant one. -/
theorem exact_factor_is_special (hn : 1 ≤ n) :
    (∀ σ : Session, (drawUnitary n).perform σ =
      (if Factors n (σ.nextNormals (2 * n * n))
        then .ok (special (matrixOf n (σ.nextNormals (2 * n * n))))
        else .error .notFinite,
      σ.skipNormals (2 * n * n))) ∧
    (∀ xs : List ℝ, matrixOf n (xs.map number) = .exact (sampled n xs)) ∧
    ∀ a : Matrix (Fin n) (Fin n) ℂ,
      (∀ (x : Fin n → ℂ) (k : Fin n), ¬ Reduced x k → beta x k ≠ 0 ∧ x k - beta x k ≠ 0) ∧
      factor (.exact a) = (.exact (unitaryFactor a), .exact (unitaryFactor a).det) ∧
      unitaryFactor a ∈ unitaryGroup (Fin n) ℂ ∧
      ((unitaryFactor a)ᴴ * a).BlockTriangular id ∧
      (unitaryFactor a).det ^ (1 / n : ℂ) ≠ 0 ∧
      special (.exact a)
        = .exact (((unitaryFactor a).det ^ (1 / n : ℂ))⁻¹ • unitaryFactor a) ∧
      ((unitaryFactor a).det ^ (1 / n : ℂ))⁻¹ • unitaryFactor a
        ∈ specialUnitaryGroup (Fin n) ℂ := by
  have hn0 : n ≠ 0 := by omega
  refine ⟨Generate.Volume.perform_drawUnitary hn, matrixOf_exact n, ?_⟩
  intro a
  have hunitary : unitaryFactor a ∈ unitaryGroup (Fin n) ℂ := factorFrom_mem_unitaryGroup a _
  refine ⟨?_, factor_exact a, hunitary, unitaryFactor_triangular a,
    root_ne_zero (det_ne_zero hunitary), special_exact hn0 a, inv_root_smul_mem hn0 hunitary⟩
  intro x k h
  exact ⟨beta_ne_zero h, gap_ne_zero h⟩

/-- a singular matrix with a column that only an imaginary part keeps from being reduced -/
theorem imaginary_corner_is_special :
    1 ≤ 2 ∧ ¬ Reduced ((!![Complex.I, 0; 0, 0] : Matrix (Fin 2) (Fin 2) ℂ).col 0) 0 ∧
      ∃ u ∈ specialUnitaryGroup (Fin 2) ℂ,
        special (.exact !![Complex.I, 0; 0, 0]) = Square.exact u := by
  obtain ⟨_, _, hexact⟩ := exact_factor_is_special (n := 2) (by decide)
  obtain ⟨_, _, _, _, _, hspecial, hmem⟩ := hexact !![Complex.I, 0; 0, 0]
  refine ⟨by decide, ?_, _, hmem, hspecial⟩
  rintro ⟨_, him⟩
  have hone : Complex.I.im = 0 := him
  rw [Complex.I_im] at hone
  exact one_ne_zero hone

end

end CircuitBench.Unitary
