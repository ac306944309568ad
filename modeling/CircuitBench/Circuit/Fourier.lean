import CircuitBench.Circuit.Basic

/-!
# The Fourier transform

The quantum Fourier transform as a list of steps: every qubit is first rotated by those before it
and then turned.  The rotation of qubit `j` by qubit `k` has the angle `pi / 2 ^ (j - k)`, which can
be written only while the power of two is a machine number; `emitted` stops at the first step
where it is none.

* `steps n`       all steps of the transform of `n` qubits;
* `emitted n`     the steps before the first one that cannot be written, and whether that is all;
* `gates n`       the gates of all steps.
-/

namespace CircuitBench.Fourier

inductive Step where
  /-- a Hadamard gate on qubit `j` -/
  | turn (j : Nat)
  /-- a controlled phase between qubits `j` and `k` -/
  | rotate (j k : Nat)
  deriving DecidableEq, Repr

/-- the steps of qubit `j` -/
def column (j : Nat) : List Step := (List.range j).map (.rotate j) ++ [.turn j]

def steps (n : Nat) : List Step := (List.range n).flatMap column

/-- the angle of the step is a machine number: two to the power `j - k` is one -/
def Step.isWritable : Step → Bool
  | .turn _ => true
  | .rotate j k => Decimal.isInRange (2 ^ (j - k)) 1

/-- `count` columns from column `j` on, up to the first step that is not writable -/
def emittedFrom : (count : Nat) → (j : Nat) → List Step × Bool
  | 0, _ => ([], true)
  | count + 1, j =>
    if (column j).all Step.isWritable then
      let (rest, complete) := emittedFrom count (j + 1)
      (column j ++ rest, complete)
    else ((column j).takeWhile Step.isWritable, false)

def emitted (n : Nat) : List Step × Bool := emittedFrom n 0

variable {θ : Type} [Phase θ]

def qubit (i : Nat) : Bit := ⟨"q", i⟩

def result (i : Nat) : Bit := ⟨"c", i⟩

def Step.gates : Step → List (Gate θ Nat)
  | .turn j => [.h j]
  | .rotate j k => controlledPhase (Phase.piOver (j - k)) j k

def gates (n : Nat) : List (Gate θ Nat) := (steps n).flatMap Step.gates

def instructions (ss : List Step) : List (Instruction θ) :=
  (ss.flatMap Step.gates).map fun g => .gate (g.map qubit) none

/-- every qubit measured, after a barrier -/
def closing (n : Int) : List (Instruction θ) :=
  .barrier (some "q") :: (List.range n.toNat).map fun j => .measure (qubit j) (result j)

def quantumRegister (n : Int) : Register := ⟨"q", n⟩

def classicalRegister (n : Int) : Register := ⟨"c", n⟩

def circuit (n : Int) : Circuit θ where
  quantum := [quantumRegister n]
  classical := [classicalRegister n]
  body := instructions (steps n.toNat) ++ closing n

theorem column_length (j : Nat) : (column j).length = j + 1 := by simp [column]

end CircuitBench.Fourier
