import CircuitBench.Generate.Volume
import CircuitBench.Proofs.Session

/-!
# Drawing a unitary

A unitary of `n` rows takes the next `2 * n * n` normal numbers of the session, whatever comes of
them.  The result is the special unitary of their matrix, if they and the factor of that matrix are
finite: `perform_drawUnitary`.
-/

namespace CircuitBench

def Session.nextNormals (σ : Session) (count : Nat) : List Float :=
  (List.range count).map fun i => σ.normals.getD ((σ.normalsUsed + i) % σ.normals.length) 0

def Session.skipNormals (σ : Session) (count : Nat) : Session :=
  { σ with normalsUsed := σ.normalsUsed + count }

namespace Generate.Volume

/-- the matrix of these numbers has a unitary factor in machine numbers -/
def Factors (n : Nat) (xs : List Float) : Prop :=
  xs.all Float.isFinite = true ∧ isFinite (Unitary.factor (matrixOf n xs)).1 = true

instance (n : Nat) (xs : List Float) : Decidable (Factors n xs) :=
  inferInstanceAs (Decidable (_ ∧ _))

theorem perform_drawNormals (count : Nat) (σ : Session) :
    (Job.drawNormals count).perform σ = (.ok (σ.nextNormals count), σ.skipNormals count) := rfl

theorem perform_drawUnitary {n : Nat} (hn : 1 ≤ n) (σ : Session) :
    (drawUnitary n).perform σ =
      (if Factors n (σ.nextNormals (2 * n * n))
        then .ok (Unitary.special (matrixOf n (σ.nextNormals (2 * n * n))))
        else .error .notFinite,
      σ.skipNormals (2 * n * n)) := by
  have hnatural : ¬(n : Int) < 0 := by omega
  have hrows : ¬n = 0 := by omega
  dsimp only [drawUnitary, Int.toNat_natCast]
  rw [if_neg hnatural, Job.perform_bind_ok (perform_drawNormals _ σ)]
  by_cases hall : (σ.nextNormals (2 * n * n)).all Float.isFinite = true
  · rw [if_neg (by simp [hall]), if_neg hrows]
    by_cases hfactor : isFinite (Unitary.factor (matrixOf n (σ.nextNormals (2 * n * n)))).1 = true
    · rw [if_neg (by simp [hfactor]), if_pos ⟨hall, hfactor⟩]
      rfl
    · rw [if_pos (by simp [hfactor]), if_neg fun h => hfactor h.2]
      rfl
  · have hfactors : ¬Factors n (σ.nextNormals (2 * n * n)) := fun h => hall h.1
    rw [if_pos (by simp [hall]), if_neg hfactors]
    rfl

end Generate.Volume

end CircuitBench
