import CircuitBench.Circuit.Gate

/-!
# Circuits

A circuit has quantum and classical registers and a list of instructions on their bits.  The size
of a register and the index of a bit are integers, and nothing here asks that they fit together;
`Circuit.WellFormed` says when they do.
-/

namespace CircuitBench

structure Register where
  name : String
  size : Int
  deriving DecidableEq, Repr

/-- one bit of the register of that name -/
structure Bit where
  register : String
  index : Int
  deriving DecidableEq, Repr

def Bit.text (b : Bit) : String := b.register ++ "[" ++ toString b.index ++ "]"

/-- a gate is applied only when the classical register holds the value -/
structure Guard where
  register : String
  value : Nat
  deriving DecidableEq, Repr

inductive Instruction (θ : Type) where
  | gate (g : Gate θ Bit) (guard : Option Guard)
  /-- across all quantum registers, or the one named -/
  | barrier (register : Option String)
  | measure (source target : Bit)
  /-- all bits of a register into another one -/
  | measureAll (source target : String)
  deriving Repr

structure Circuit (θ : Type) where
  quantum : List Register
  classical : List Register
  body : List (Instruction θ)
  deriving Repr

/-- the indices `0 … n - 1`, none if `n` is not positive -/
def indices (n : Int) : List Int := (List.range n.toNat).map Int.ofNat

def Register.bits (r : Register) : List Bit := (indices r.size).map (⟨r.name, ·⟩)

/-- the bit is one of the register of its name -/
def Bit.inside (registers : List Register) (b : Bit) : Prop :=
  ∃ r ∈ registers, r.name = b.register ∧ 0 ≤ b.index ∧ b.index < r.size

namespace Instruction

variable {θ : Type}

/-- operands are inside their registers, the two of a controlled gate differ, and the value of a
guard fits into its register -/
def WellFormed (quantum classical : List Register) : Instruction θ → Prop
  | .gate g guard =>
    (∀ q ∈ g.operands, q.inside quantum) ∧ g.operands.Nodup ∧
      ∀ c ∈ guard, ∃ r ∈ classical, r.name = c.register ∧ c.value < 2 ^ r.size.toNat
  | .barrier _ => True
  | .measure source target => source.inside quantum ∧ target.inside classical
  | .measureAll source target =>
    (∃ r ∈ quantum, r.name = source) ∧ ∃ r ∈ classical, r.name = target

end Instruction

namespace Circuit

def WellFormed {θ : Type} (c : Circuit θ) : Prop :=
  ∀ i ∈ c.body, i.WellFormed c.quantum c.classical

end Circuit

/-! ## circuits that ask a query

They have one register of qubits and one of results. -/

namespace Query

def qubit (i : Int) : Bit := ⟨"qr", i⟩

def result (i : Int) : Bit := ⟨"cr", i⟩

/-- a gate that is always applied -/
def gate {θ : Type} (g : Gate θ Bit) : Instruction θ := .gate g none

end Query

@[simp] theorem indices_length (n : Int) : (indices n).length = n.toNat := by simp [indices]

theorem mem_indices (n i : Int) : i ∈ indices n ↔ 0 ≤ i ∧ i < n := by
  simp only [indices, List.mem_map, List.mem_range]
  constructor
  · rintro ⟨k, hk, rfl⟩
    simp only [Int.ofNat_eq_natCast]
    omega
  · rintro ⟨h0, hn⟩
    exact ⟨i.toNat, by omega, by simp only [Int.ofNat_eq_natCast]; omega⟩

theorem indices_nodup (n : Int) : (indices n).Nodup := by
  have hne (i j : Nat) (hij : i ≠ j) : Int.ofNat i ≠ Int.ofNat j := fun h => hij (Int.ofNat.inj h)
  exact List.Pairwise.map Int.ofNat hne List.nodup_range

end CircuitBench
