import CircuitBench.Generate.Fourier
import CircuitBench.Proofs.Session
import CircuitBench.Proofs.Toolkit.Recording

/-!
# Controlled phases

Two of the five gates of a controlled phase are not diagonal, but all five together are
(`gatesOperator_controlledPhase`).  As instructions on bits of any registers they have an operator
exactly if the bits are two different wires (`operator?_phase`, `operator?_phase_eq_none`).  So the
laws of diagonal matrices are laws of controlled phases: the bits can be exchanged, controlled
phases can be done in any order, and the angles of two on the same bits add up.

The gates that are added to a circuit have machine angles.  A reading that gives the two halves of
an angle their exact values (`Reads`) makes them the exact gates.
-/

namespace CircuitBench.Quantum

open Matrix Complex

noncomputable section

/-! ## the diagonal -/

/-- the factor of a basis state: the angle counts where both wires are one -/
def phaseFactor {ω : Type} (l : ℝ) (a b : ω) (x : Basis ω) : ℂ :=
  if x a && x b then exp (l * I) else 1

section
variable {ω : Type}

theorem phaseFactor_comm (l : ℝ) (a b : ω) : phaseFactor l a b = phaseFactor l b a := by
  funext x
  rw [phaseFactor, phaseFactor, Bool.and_comm]

theorem phaseFactor_add (l m : ℝ) (a b : ω) (x : Basis ω) :
    phaseFactor m a b x * phaseFactor l a b x = phaseFactor (l + m) a b x := by
  by_cases h : x a && x b
  · rw [phaseFactor, phaseFactor, phaseFactor, if_pos h, if_pos h, if_pos h, ← exp_add, ← add_mul,
      ofReal_add, add_comm (m : ℂ)]
  · rw [phaseFactor, phaseFactor, phaseFactor, if_neg h, if_neg h, if_neg h, one_mul]

variable [Fintype ω] [DecidableEq ω]

theorem gatesOperator_controlledPhase (l : ℝ) {a b : ω} (h : a ≠ b) :
    gatesOperator (controlledPhase l a b) = diagonal (phaseFactor l a b) := by
  apply operator_ext
  intro ψ
  funext x
  rw [controlledPhase_mulVec l h, mulVec_diagonal, phaseFactor]

end

/-! ## instructions -/

/-- the gates of a controlled phase between two bits, without a guard -/
def phaseInstructions {θ : Type} [Phase θ] (l : θ) (a b : Bit) : List (Instruction θ) :=
  (controlledPhase l a b).map fun g => .gate g none

def phaseCalls (t : Number) (a b : String) : List Call :=
  [.gate (.u1 (Phase.half t) a), .gate (.cx a b), .gate (.u1 (Phase.half (Phase.neg t)) b),
    .gate (.cx a b), .gate (.u1 (Phase.half t) b)]

theorem perform_phase {t : Number} (ht : t.hasHalf = true) (a b : String) (σ : Session) :
    (Generate.Fourier.phase t a b).perform σ = (.ok (), σ.say ((phaseCalls t a b).map .call)) := by
  rw [Generate.Fourier.phase, ht]
  rfl

theorem continued?_phaseCalls (c : Circuit Number) (t : Number) {a b : Bit}
    (ha : '[' ∉ a.register.toList) (hb : '[' ∉ b.register.toList) :
    c.continued? (phaseCalls t a.text b.text)
      = some { c with body := c.body ++ phaseInstructions t a b } := by
  have hlegible : ∀ i ∈ phaseInstructions t a b, i.Legible := by
    simp [phaseInstructions, controlledPhase, Instruction.Legible, Gate.operands, ha, hb]
  exact c.continued?_instructions hlegible

section
attribute [local instance] atLeastTwo_two

/-- the machine angles of a controlled phase are read as those of the exact angle -/
structure Reads (read : Number → ℝ) (t : Number) (l : ℝ) : Prop where
  half : read (Phase.half t) = l / 2
  neg : read (Phase.half (Phase.neg t)) = -l / 2

end

theorem Reads.controlledPhase {read : Number → ℝ} {t : Number} {l : ℝ} (h : Reads read t l)
    {ω : Type} (a b : ω) :
    (controlledPhase t a b).map (Gate.withAngles read) = controlledPhase l a b := by
  simp only [CircuitBench.controlledPhase, List.map_cons, List.map_nil, Gate.withAngles, h.half,
    h.neg]
  rfl

theorem Reads.phaseInstructions {read : Number → ℝ} {t : Number} {l : ℝ} (h : Reads read t l)
    (a b : Bit) :
    (phaseInstructions t a b).map (Instruction.withAngles read) = phaseInstructions l a b := by
  rw [Quantum.phaseInstructions, Quantum.phaseInstructions, ← h.controlledPhase, List.map_map,
    List.map_map]
  rfl

section
variable {rs : List Register}

theorem operator?_append (is js : List (Instruction ℝ)) :
    operator? rs (is ++ js)
      = (operator? rs is).bind fun U => (operator? rs js).map (· * U) := by
  induction is with
  | nil =>
    show operator? rs js = (operator? rs js).map (· * 1)
    simp
  | cons i is ih =>
    rw [List.cons_append]
    cases i with
    | barrier register =>
      rw [operator?, operator?]
      exact ih
    | measure source target => rfl
    | measureAll source target => rfl
    | gate g guard =>
      cases guard with
      | some guard => rfl
      | none =>
        rw [operator?, operator?, ih]
        cases placed rs g with
        | none => rfl
        | some g => cases operator? rs is <;> cases operator? rs js <;> simp [mul_assoc]

theorem operator?_phase (l : ℝ) {a b : Wire rs} (h : a ≠ b) :
    operator? rs (phaseInstructions l a.1 b.1) = some (diagonal (phaseFactor l a b)) := by
  have hgates : phaseInstructions l a.1 b.1 = (controlledPhase l a b).map (lifted none) := rfl
  rw [hgates, operator?_gates _ (controlledPhase_operands l h), gatesOperator_controlledPhase l h]

theorem placed_cx_eq_none {a b : Bit} (h : ¬ (a.inside rs ∧ b.inside rs ∧ a ≠ b)) :
    placed rs (.cx a b) = none := by
  rw [placed]
  split_ifs with hab
  · have hne : a ≠ b := by simpa [Gate.operands] using hab
    rw [Gate.traverse, wire?, wire?]
    by_cases ha : a.inside rs
    · have hb : ¬ b.inside rs := fun hb => h ⟨ha, hb, hne⟩
      rw [dif_pos ha, dif_neg hb]
      rfl
    · rw [dif_neg ha]
      rfl
  · rfl

-- the second gate needs two different wires
theorem operator?_phase_eq_none (l : ℝ) {a b : Bit}
    (h : ¬ (a.inside rs ∧ b.inside rs ∧ a ≠ b)) :
    operator? rs (phaseInstructions l a b) = none := by
  have hrest (is : List (Instruction ℝ)) : operator? rs (.gate (.cx a b) none :: is) = none := by
    rw [operator?, placed_cx_eq_none h]
    rfl
  show operator? rs ([.gate (.u1 (Phase.half l) a) none] ++ .gate (.cx a b) none :: _) = none
  rw [operator?_append, hrest]
  cases operator? rs [.gate (.u1 (Phase.half l) a) none] <;> rfl

/-- two bits are different wires, or they have no controlled phase either way round -/
theorem two_wires_or_none (rs : List Register) (a b : Bit) :
    (∃ u v : Wire rs, u ≠ v ∧ u.1 = a ∧ v.1 = b) ∨
      ∀ l : ℝ, operator? rs (phaseInstructions l a b) = none ∧
        operator? rs (phaseInstructions l b a) = none := by
  by_cases h : a.inside rs ∧ b.inside rs ∧ a ≠ b
  · obtain ⟨ha, hb, hne⟩ := h
    exact .inl ⟨⟨a, ha⟩, ⟨b, hb⟩, fun he => hne (congrArg Subtype.val he), rfl, rfl⟩
  · have h' : ¬ (b.inside rs ∧ a.inside rs ∧ b ≠ a) := by
      rintro ⟨hb, ha, hne⟩
      exact h ⟨ha, hb, hne.symm⟩
    exact .inr fun l => ⟨operator?_phase_eq_none l h, operator?_phase_eq_none l h'⟩

/-! ## laws -/

theorem operator?_phase_comm (l : ℝ) (a b : Bit) :
    operator? rs (phaseInstructions l a b) = operator? rs (phaseInstructions l b a) := by
  rcases two_wires_or_none rs a b with ⟨u, v, hne, rfl, rfl⟩ | hnone
  · rw [operator?_phase l hne, operator?_phase l hne.symm, phaseFactor_comm]
  · rw [(hnone l).1, (hnone l).2]

theorem operator?_phase_add (l m : ℝ) (a b : Bit) :
    operator? rs (phaseInstructions l a b ++ phaseInstructions m a b)
      = operator? rs (phaseInstructions (l + m) a b) := by
  rw [operator?_append]
  rcases two_wires_or_none rs a b with ⟨u, v, hne, rfl, rfl⟩ | hnone
  · rw [operator?_phase l hne, operator?_phase m hne, operator?_phase (l + m) hne]
    show some (diagonal (phaseFactor m u v) * diagonal (phaseFactor l u v)) = _
    rw [diagonal_mul_diagonal]
    simp only [phaseFactor_add]
  · rw [(hnone l).1, (hnone (l + m)).1]
    rfl

theorem operator?_phase_swap (l m : ℝ) (a b c d : Bit) :
    operator? rs (phaseInstructions l a b ++ phaseInstructions m c d)
      = operator? rs (phaseInstructions m c d ++ phaseInstructions l a b) := by
  rw [operator?_append, operator?_append]
  rcases two_wires_or_none rs a b with ⟨u, v, hne, rfl, rfl⟩ | hnone
  · rcases two_wires_or_none rs c d with ⟨w, z, hne', rfl, rfl⟩ | hnone
    · rw [operator?_phase l hne, operator?_phase m hne']
      show some (diagonal (phaseFactor m w z) * diagonal (phaseFactor l u v))
        = some (diagonal (phaseFactor l u v) * diagonal (phaseFactor m w z))
      rw [diagonal_mul_diagonal, diagonal_mul_diagonal]
      simp only [mul_comm]
    · rw [(hnone m).1, operator?_phase l hne]
      rfl
  · rw [(hnone l).1]
    cases operator? rs (phaseInstructions m c d) <;> rfl

end

/-- **The five gates are a controlled phase.**  On different wires of any registers they are the
unitary that multiplies the basis states in which both wires are one by `exp (l * I)` and leaves the
others.  The two bits can be exchanged, two controlled phases on any bits commute, and the angles of
two on the same bits add up.  Adding a controlled phase makes five calls; what these record, with
its machine angles read as the exact ones, are the five gates. -/
theorem phase_gates_are_diagonal (rs : List Register) (l m : ℝ) :
    (∀ a b : Wire rs, a ≠ b →
      diagonal (phaseFactor l a b) ∈ unitaryGroup (Basis (Wire rs)) ℂ ∧
      operator? rs (phaseInstructions l a.1 b.1) = some (diagonal (phaseFactor l a b))) ∧
    (∀ a b : Bit,
      operator? rs (phaseInstructions l a b) = operator? rs (phaseInstructions l b a)) ∧
    (∀ a b c d : Bit, operator? rs (phaseInstructions l a b ++ phaseInstructions m c d)
      = operator? rs (phaseInstructions m c d ++ phaseInstructions l a b)) ∧
    (∀ a b : Bit, operator? rs (phaseInstructions l a b ++ phaseInstructions m a b)
      = operator? rs (phaseInstructions (l + m) a b)) ∧
    ∀ (t : Number), t.hasHalf = true →
      (∀ (a b : String) (σ : Session), (Generate.Fourier.phase t a b).perform σ
        = (.ok (), σ.say ((phaseCalls t a b).map .call))) ∧
      ∀ (read : Number → ℝ) (a b : Bit) (c : Circuit Number), Reads read t l →
        '[' ∉ a.register.toList → '[' ∉ b.register.toList →
        ∃ is, c.continued? (phaseCalls t a.text b.text) = some { c with body := c.body ++ is } ∧
          is.map (Instruction.withAngles read) = phaseInstructions l a b := by
  refine ⟨?_, operator?_phase_comm l, operator?_phase_swap l m, operator?_phase_add l m, ?_⟩
  · intro a b hne
    refine ⟨?_, operator?_phase l hne⟩
    rw [← gatesOperator_controlledPhase l hne]
    exact gatesOperator_mem_unitaryGroup _ (controlledPhase_operands l hne)
  · intro t ht
    refine ⟨perform_phase ht, ?_⟩
    intro read a b c hread ha hb
    exact ⟨_, continued?_phaseCalls c t ha hb, hread.phaseInstructions a b⟩

section
attribute [local instance] atLeastTwo_two

/-- whole numbers as they are, machine numbers as one half with their sign -/
def readOne : Number → ℝ
  | .whole k => k
  | .real x => if x < 0 then -1 / 2 else 1 / 2

end

theorem reads_one : Reads readOne (.whole 1) 1 where
  half := by
    have hsign : ¬ Number.half (.whole 1) < 0 := by decide +kernel
    show (if Number.half (.whole 1) < 0 then (-1 / 2 : ℝ) else 1 / 2) = 1 / 2
    rw [if_neg hsign]
  neg := by
    have hsign : Number.half (Phase.neg (.whole 1)) < 0 := by decide +kernel
    show (if Number.half (Phase.neg (.whole 1)) < 0 then (-1 / 2 : ℝ) else 1 / 2) = -1 / 2
    rw [if_pos hsign]

/-- the first and the last of three wires -/
theorem outer_wires_phase_is_diagonal :
    ∃ a b : Wire [Fourier.quantumRegister 3], a ≠ b ∧
      operator? [Fourier.quantumRegister 3] (phaseInstructions 1 ⟨"q", 0⟩ ⟨"q", 2⟩)
        = some (diagonal (phaseFactor 1 a b)) ∧
      (Generate.Fourier.phase (.whole 1) "q[0]" "q[2]").perform Session.initial
        = (.ok (), Session.initial.say ((phaseCalls (.whole 1) "q[0]" "q[2]").map .call)) ∧
      ∃ is, Circuit.blank.continued? (phaseCalls (.whole 1) "q[0]" "q[2]")
          = some { Circuit.blank with body := is } ∧
        is.map (Instruction.withAngles readOne) = phaseInstructions 1 ⟨"q", 0⟩ ⟨"q", 2⟩ := by
  have hne : (⟨⟨"q", 0⟩, by decide⟩ : Wire [Fourier.quantumRegister 3])
      ≠ ⟨⟨"q", 2⟩, by decide⟩ := by
    decide
  obtain ⟨hdiagonal, _, _, _, hcalls⟩ := phase_gates_are_diagonal [Fourier.quantumRegister 3] 1 0
  obtain ⟨hperform, hrecord⟩ := hcalls (.whole 1) (by decide +kernel)
  exact ⟨_, _, hne, (hdiagonal _ _ hne).2, hperform _ _ _,
    hrecord readOne ⟨"q", 0⟩ ⟨"q", 2⟩ _ reads_one (by decide) (by decide)⟩

end

end CircuitBench.Quantum
