import CircuitBench.Unitary.Scalar

/-!
# Complex numbers and square matrices

Complex numbers over any scalars, and square matrices of them.  A matrix is stored, and given by
its entries: `Square.get_of`.
-/

namespace CircuitBench

structure Cplx (α : Type) where
  re : α
  im : α
  deriving Repr

namespace Cplx

variable {α : Type} [Scalar α]

def zero : Cplx α := ⟨0, 0⟩

def one : Cplx α := ⟨1, 0⟩

def add (a b : Cplx α) : Cplx α := ⟨a.re + b.re, a.im + b.im⟩

def sub (a b : Cplx α) : Cplx α := ⟨a.re - b.re, a.im - b.im⟩

def mul (a b : Cplx α) : Cplx α :=
  ⟨a.re * b.re - a.im * b.im, a.re * b.im + a.im * b.re⟩

def neg (a : Cplx α) : Cplx α := ⟨-a.re, -a.im⟩

def scale (s : α) (a : Cplx α) : Cplx α := ⟨a.re * s, a.im * s⟩

def conj (a : Cplx α) : Cplx α := ⟨a.re, -a.im⟩

/-- the reciprocal; both parts are divided by the length first -/
def inv (a : Cplx α) : Cplx α :=
  let r := Scalar.norm [a.re, a.im]
  ⟨a.re / r / r, -(a.im / r) / r⟩

def div (a b : Cplx α) : Cplx α := mul a (inv b)

def isZero (a : Cplx α) : Bool := Scalar.isZero a.re && Scalar.isZero a.im

def root (n : Nat) (a : Cplx α) : Cplx α :=
  let (re, im) := Scalar.root n a.re a.im
  ⟨re, im⟩

def sum {n : Nat} (f : Fin n → Cplx α) : Cplx α := (List.ofFn f).foldr add zero

end Cplx

/-- a stored square matrix -/
structure Square (n : Nat) (α : Type) where
  rows : Vector (Vector α n) n

namespace Square

variable {n : Nat} {α : Type}

def of (f : Fin n → Fin n → α) : Square n α := ⟨Vector.ofFn fun i => Vector.ofFn (f i)⟩

def get (m : Square n α) (i j : Fin n) : α := (m.rows.get i).get j

@[simp] theorem get_of (f : Fin n → Fin n → α) (i j : Fin n) : (of f).get i j = f i j := by
  simp only [of, get, Vector.get, Vector.toArray_ofFn, Array.getElem_ofFn]
  rfl

end Square

end CircuitBench
