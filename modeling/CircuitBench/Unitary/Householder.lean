import CircuitBench.Unitary.Complex

/-!
# Unitaries by reflections

The unitary factor of a square matrix: column by column a reflection takes everything below the
diagonal away, and the unitary is the product of the reflections.

* `Reflection`         `1 - tau v vᴴ`;
* `reflection a k`     the reflection for column `k` of `a`;
* `reflections a`      those of the columns that need one, each for the matrix that the ones before
                       it leave;
* `factor a`           their product, and its determinant;
* `special a`          the factor divided by the principal root of its determinant.
-/

namespace CircuitBench.Unitary

open Cplx

variable {α : Type} [Scalar α] {n : Nat}

/-- the matrix `1 - tau v vᴴ` -/
structure Reflection (n : Nat) (α : Type) where
  tau : Cplx α
  v : Vector (Cplx α) n

namespace Reflection

/-- the determinant `1 - tau vᴴ v` -/
def det (r : Reflection n α) : Cplx α :=
  sub one (mul r.tau (Cplx.sum fun i => mul (conj (r.v.get i)) (r.v.get i)))

/-- the conjugate transpose of the reflection times a matrix; a column across `v` stays as it is -/
def adjointMul (r : Reflection n α) (a : Square n (Cplx α)) : Square n (Cplx α) :=
  let w : Vector (Cplx α) n := Vector.ofFn fun j =>
    Cplx.sum fun i => mul (conj (r.v.get i)) (a.get i j)
  .of fun i j =>
    if (w.get j).isZero then a.get i j
    else add (a.get i j) (mul (r.v.get i) (mul (neg (conj r.tau)) (w.get j)))

/-- a matrix times the reflection -/
def mulRight (a : Square n (Cplx α)) (r : Reflection n α) : Square n (Cplx α) :=
  let w : Vector (Cplx α) n := Vector.ofFn fun i =>
    Cplx.sum fun j => mul (a.get i j) (r.v.get j)
  .of fun i j => sub (a.get i j) (mul r.tau (mul (w.get i) (conj (r.v.get j))))

end Reflection

/-- the length of a column from the entry `k` on -/
def lengthFrom (column : Fin n → Cplx α) (k : Fin n) : α :=
  Scalar.norm
    (List.ofFn fun i : Fin n => if i < k then [] else [(column i).re, (column i).im]).flatten

/-- column `k` has nothing to take away: zeros below a real diagonal entry -/
def isReduced (a : Square n (Cplx α)) (k : Fin n) : Bool :=
  (List.ofFn fun i : Fin n => decide (i ≤ k) || (a.get i k).isZero).all id &&
    Scalar.isZero (a.get k k).im

/-- the reflection that takes the end of a column, from the entry `k` on, to a real multiple `beta`
of the unit vector, with the sign against that of its first entry -/
def reflectionOf (column : Fin n → Cplx α) (k : Fin n) : Reflection n α :=
  let alpha := column k
  let length := lengthFrom column k
  let beta := if Scalar.isNegative alpha.re then length else -length
  let scale := inv (⟨alpha.re - beta, alpha.im⟩ : Cplx α)
  { tau := ⟨(beta - alpha.re) / beta, -alpha.im / beta⟩
    v := Vector.ofFn fun i =>
      if i < k then zero else if i = k then one else mul (column i) scale }

/-- the reflection for column `k`; it is the same for a stretched column -/
def reflection (a : Square n (Cplx α)) (k : Fin n) : Reflection n α :=
  let column (i : Fin n) := a.get i k
  let s := Scalar.stretch (lengthFrom column k)
  reflectionOf (fun i => (column i).scale s) k

/-- the reflections of those of the columns `ks` that need one, each for the matrix that the ones
before it leave -/
def reflectionsFrom (a : Square n (Cplx α)) : List (Fin n) → List (Reflection n α)
  | [] => []
  | k :: ks =>
    if isReduced a k then reflectionsFrom a ks
    else
      let r := reflection a k
      r :: reflectionsFrom (r.adjointMul a) ks

def reflections (a : Square n (Cplx α)) : List (Reflection n α) :=
  reflectionsFrom a (List.finRange n)

def product (rs : List (Reflection n α)) : Square n (Cplx α) × Cplx α :=
  (rs.foldl Reflection.mulRight (.of fun i j => if i = j then one else zero),
    rs.foldl (fun d r => mul d r.det) one)

/-- the unitary factor of a matrix and its determinant -/
def factor (a : Square n (Cplx α)) : Square n (Cplx α) × Cplx α := product (reflections a)

/-- a matrix divided by the principal root of `d` -/
def normalized (q : Square n (Cplx α)) (d : Cplx α) : Square n (Cplx α) :=
  let r := root n d
  .of fun i j => div (q.get i j) r

/-- the unitary factor divided by the principal root of its determinant -/
def special (a : Square n (Cplx α)) : Square n (Cplx α) := normalized (factor a).1 (factor a).2

end CircuitBench.Unitary
