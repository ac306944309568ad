import CircuitBench.Unitary.Complex
import CircuitBench.Proofs.Quantum.Operators

/-!
# Exact numbers

The arithmetic of unitaries read over the reals.  A division by zero has no result, and whatever is
computed from it has none either, so an `Exact` that is a number at the end shows that nothing on
the way to it was divided by zero.

* `Exact`              a real number, or `undefined`;
* `Cplx.exact`         a complex number with two defined parts;
* `Square.exact`       a matrix of them.

The operations on defined complex numbers are those of `ℂ` (`exact_mul`, `exact_sum`), and the
reciprocal is one for every number but zero (`exact_inv`).
-/

namespace CircuitBench

noncomputable section

inductive Exact where
  | number (x : ℝ)
  | undefined

namespace Exact

def lift (f : ℝ → Exact) : Exact → Exact
  | number x => f x
  | undefined => undefined

/-- an operation on two numbers; it has no result if one of them is undefined -/
def lift₂ (f : ℝ → ℝ → Exact) (a b : Exact) : Exact := lift (fun x => lift (f x) b) a

def divide (x y : ℝ) : Exact := if y = 0 then undefined else number (x / y)

def sumSquares (as : List Exact) : Exact :=
  as.foldr (lift₂ fun x s => number (x * x + s)) (number 0)

def isZero : Exact → Bool
  | number x => decide (x = 0)
  | undefined => false

def isNegative : Exact → Bool
  | number x => decide (x < 0)
  | undefined => false

section
attribute [local instance] Quantum.atLeastTwo_two

/-- short columns are stretched, as those of machine numbers are -/
def stretching (length : ℝ) : ℝ := if length * 2 ^ 969 < 1 then 2 ^ 969 else 1

end

theorem stretching_pos (length : ℝ) : 0 < stretching length := by
  unfold stretching
  split <;> positivity

/-- the principal root, which needs the reciprocal of `n` -/
def root (n : Nat) (a b : Exact) : Exact × Exact :=
  if n = 0 then (undefined, undefined)
  else
    (lift₂ (fun x y => number (((⟨x, y⟩ : ℂ) ^ (1 / n : ℂ)).re)) a b,
      lift₂ (fun x y => number (((⟨x, y⟩ : ℂ) ^ (1 / n : ℂ)).im)) a b)

instance : Scalar Exact where
  zero := number 0
  one := number 1
  add := lift₂ fun x y => number (x + y)
  sub := lift₂ fun x y => number (x - y)
  mul := lift₂ fun x y => number (x * y)
  div := lift₂ divide
  neg := lift fun x => number (-x)
  norm as := lift (fun s => number √s) (sumSquares as)
  isZero := isZero
  isNegative := isNegative
  stretch := lift fun x => number (stretching x)
  root := root

theorem sub_number (x y : ℝ) : number x - number y = number (x - y) := rfl

theorem neg_number (x : ℝ) : -number x = number (-x) := rfl

theorem div_number (x : ℝ) {y : ℝ} (hy : y ≠ 0) : number x / number y = number (x / y) :=
  if_neg hy

theorem sumSquares_map (xs : List ℝ) :
    sumSquares (xs.map number) = number ((xs.map fun x => x * x).sum) := by
  induction xs with
  | nil => rfl
  | cons x xs ih =>
    rw [sumSquares] at ih
    rw [sumSquares, List.map_cons, List.foldr_cons, ih]
    rfl

theorem norm_map (xs : List ℝ) :
    Scalar.norm (xs.map number) = number √(xs.map fun x => x * x).sum := by
  show lift _ (sumSquares (xs.map number)) = _
  rw [sumSquares_map]
  rfl

end Exact

open Exact

namespace Cplx

def exact (z : ℂ) : Cplx Exact := ⟨number z.re, number z.im⟩

theorem re_exact (z : ℂ) : (exact z).re = number z.re := rfl

theorem im_exact (z : ℂ) : (exact z).im = number z.im := rfl

theorem exact_one : one = exact 1 := rfl

theorem exact_add (z w : ℂ) : add (exact z) (exact w) = exact (z + w) := rfl

theorem exact_sub (z w : ℂ) : sub (exact z) (exact w) = exact (z - w) := rfl

theorem exact_neg (z : ℂ) : neg (exact z) = exact (-z) := rfl

theorem exact_conj (z : ℂ) : conj (exact z) = exact (star z) := rfl

theorem exact_mul (z w : ℂ) : mul (exact z) (exact w) = exact (z * w) := by
  show (⟨number (z.re * w.re - z.im * w.im), number (z.re * w.im + z.im * w.re)⟩ : Cplx Exact) = _
  rw [exact, Complex.mul_re, Complex.mul_im]

theorem exact_scale (s : ℝ) (z : ℂ) : scale (number s) (exact z) = exact (z * s) := by
  show (⟨number (z.re * s), number (z.im * s)⟩ : Cplx Exact) = _
  rw [exact, Complex.re_mul_ofReal, Complex.im_mul_ofReal]

theorem norm_parts (z : ℂ) : Scalar.norm [number z.re, number z.im] = number ‖z‖ := by
  have hsum : ([z.re, z.im].map fun x => x * x).sum = Complex.normSq z := by
    simp [Complex.normSq_apply]
  have h := norm_map [z.re, z.im]
  rw [hsum] at h
  rw [Complex.norm_def]
  exact h

/-- the length of a number other than zero is not zero, so both divisions by it have a result -/
theorem exact_inv {z : ℂ} (hz : z ≠ 0) : inv (exact z) = exact z⁻¹ := by
  have hr : ‖z‖ ≠ 0 := norm_ne_zero_iff.2 hz
  have hre : z.re / ‖z‖ / ‖z‖ = (z⁻¹).re := by
    rw [Complex.inv_re, Complex.normSq_eq_norm_sq, div_div, sq]
  have him : -(z.im / ‖z‖) / ‖z‖ = (z⁻¹).im := by
    rw [Complex.inv_im, Complex.normSq_eq_norm_sq, neg_div, neg_div, div_div, sq]
  unfold inv exact
  simp only [norm_parts, div_number _ hr, neg_number, hre, him]

theorem exact_div (z : ℂ) {w : ℂ} (hw : w ≠ 0) : div (exact z) (exact w) = exact (z / w) := by
  rw [div, exact_inv hw, exact_mul, div_eq_mul_inv]

theorem isZero_exact (z : ℂ) : isZero (exact z) = decide (z = 0) := by
  rw [Bool.eq_iff_iff, decide_eq_true_iff, Complex.ext_iff]
  show (decide (z.re = 0) && decide (z.im = 0)) = true ↔ _
  rw [Bool.and_eq_true, decide_eq_true_iff, decide_eq_true_iff]
  rfl

theorem exact_root {n : Nat} (hn : n ≠ 0) (z : ℂ) :
    root n (exact z) = exact (z ^ (1 / n : ℂ)) := by
  have hroot : Scalar.root n (number z.re) (number z.im)
      = (number (z ^ (1 / n : ℂ)).re, number (z ^ (1 / n : ℂ)).im) := if_neg hn
  rw [root]
  show (match Scalar.root n (number z.re) (number z.im) with | (re, im) => (⟨re, im⟩ : Cplx Exact))
    = _
  rw [hroot]
  rfl

theorem exact_sum {n : Nat} (f : Fin n → ℂ) : sum (fun i => exact (f i)) = exact (∑ i, f i) := by
  have hfold (zs : List ℂ) : (zs.map exact).foldr add zero = exact zs.sum := by
    induction zs with
    | nil => rfl
    | cons z zs ih => rw [List.map_cons, List.foldr_cons, ih, exact_add, List.sum_cons]
  rw [sum, ← List.sum_ofFn, ← hfold, List.map_ofFn]
  rfl

end Cplx

namespace Square

variable {n : Nat}

def exact (a : Matrix (Fin n) (Fin n) ℂ) : Square n (Cplx Exact) := .of fun i j => .exact (a i j)

@[simp] theorem get_exact (a : Matrix (Fin n) (Fin n) ℂ) (i j : Fin n) :
    (exact a).get i j = .exact (a i j) :=
  get_of _ i j

theorem of_eq_exact {f : Fin n → Fin n → Cplx Exact} {a : Matrix (Fin n) (Fin n) ℂ}
    (h : ∀ i j, f i j = .exact (a i j)) : of f = exact a := by
  rw [exact]
  congr 1
  funext i j
  exact h i j

theorem exact_one :
    (.of fun i j => if i = j then Cplx.one else Cplx.zero : Square n (Cplx Exact)) = exact 1 := by
  apply of_eq_exact
  intro i j
  rw [Matrix.one_apply]
  split <;> rfl

end Square

end

end CircuitBench
