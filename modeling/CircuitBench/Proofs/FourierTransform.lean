import CircuitBench.Proofs.Quantum.ControlledPhase

/-!
# The gates of the transform are the discrete Fourier transform

Started in a basis state, the transform keeps product states.  When column `j` begins, the wires
before `j` hold both values, the value one turned by an angle, and the wires from `j` on still hold
their bits (`stage x j`).  The rotations of the column add the bit of wire `j` to the angles before
it, and the Hadamard gate makes the angle of wire `j` itself: `run_column`.

`instructions_denote_transform` reads the last stage as the Fourier matrix, with the bits of the
input counted from the first wire down and those of the output from the first wire up.  The gates
that are added to a circuit have machine angles; a reading that gives these their exact values
(`ReadsAngles`) makes them the gates of the transform.
-/

namespace CircuitBench.Fourier

open Quantum Matrix Complex

noncomputable section

/-! ## the wires of the register -/

section
variable {n : Nat}

def place (w : Wire [quantumRegister n]) : Nat := w.1.index.toNat

def wireAt {j : Nat} (h : j < n) : Wire [quantumRegister n] :=
  ⟨qubit j, by
    rw [inside_singleton]
    exact ⟨rfl, Int.natCast_nonneg j, Int.ofNat_lt.2 h⟩⟩

@[simp] theorem place_wireAt {j : Nat} (h : j < n) : place (wireAt h) = j := rfl

theorem index_eq_place (w : Wire [quantumRegister n]) : w.1.index = place w :=
  (Int.toNat_of_nonneg ((inside_singleton _ _).1 w.2).2.1).symm

theorem place_lt (w : Wire [quantumRegister n]) : place w < n := by
  have h : w.1.index < n := ((inside_singleton _ _).1 w.2).2.2
  rw [index_eq_place] at h
  omega

theorem eq_wireAt_iff {j : Nat} (h : j < n) (w : Wire [quantumRegister n]) :
    w = wireAt h ↔ place w = j := by
  constructor
  · rintro rfl
    exact place_wireAt h
  · intro e
    apply wire_ext
    rw [index_eq_place, e]
    rfl

/-! ## steps as gates on wires -/

/-- the wires of a step are in the register and differ -/
def Step.fits (n : Nat) : Step → Prop
  | .turn j => j < n
  | .rotate j k => j < n ∧ k < j

theorem fits_of_mem_column {j : Nat} (hj : j < n) : ∀ s ∈ column j, s.fits n := by
  intro s hs
  rw [column, List.mem_append, List.mem_map, List.mem_singleton] at hs
  rcases hs with ⟨k, hk, rfl⟩ | rfl
  · exact ⟨hj, List.mem_range.1 hk⟩
  · exact hj

theorem fits_of_mem_steps : ∀ s ∈ steps n, s.fits n := by
  intro s hs
  obtain ⟨j, hj, hs⟩ := List.mem_flatMap.1 hs
  exact fits_of_mem_column (List.mem_range.1 hj) s hs

theorem steps_succ (j : Nat) : steps (j + 1) = steps j ++ column j := by
  rw [steps, List.range_succ, List.flatMap_append, List.flatMap_singleton]
  rfl

theorem instructions_append {θ : Type} [Phase θ] (ss ts : List Step) :
    instructions (θ := θ) (ss ++ ts) = instructions ss ++ instructions ts := by
  rw [instructions, List.flatMap_append, List.map_append]
  rfl

theorem instructions_turn {j : Nat} (hj : j < n) :
    instructions [.turn j] = [Gate.h (wireAt hj)].map (lifted none) := rfl

theorem instructions_rotate {j k : Nat} (hj : j < n) (hk : k < n) :
    instructions [.rotate j k]
      = (controlledPhase (Phase.piOver (j - k)) (wireAt hj) (wireAt hk)).map (lifted none) := rfl

theorem wireAt_ne {j k : Nat} (hj : j < n) (hk : k < n) (h : k < j) : wireAt hj ≠ wireAt hk := by
  intro e
  have := congrArg place e
  rw [place_wireAt, place_wireAt] at this
  omega

/-- fitting steps are gates on wires -/
theorem exists_gates_of_fits (ss : List Step) (h : ∀ s ∈ ss, s.fits n) :
    ∃ gs : List (Gate ℝ (Wire [quantumRegister n])),
      instructions ss = gs.map (lifted none) ∧ ∀ g ∈ gs, g.operands.Nodup := by
  induction ss with
  | nil => exact ⟨[], rfl, by simp⟩
  | cons s ss ih =>
    obtain ⟨gs, hgs, hn⟩ := ih fun t ht => h t (List.mem_cons_of_mem s ht)
    have hs : ∃ gs : List (Gate ℝ (Wire [quantumRegister n])),
        instructions [s] = gs.map (lifted none) ∧ ∀ g ∈ gs, g.operands.Nodup := by
      cases s with
      | turn j =>
        have hj : j < n := h _ List.mem_cons_self
        exact ⟨_, instructions_turn hj, by simp [Gate.operands]⟩
      | rotate j k =>
        obtain ⟨hj, hk⟩ : j < n ∧ k < j := h _ List.mem_cons_self
        have hkn : k < n := by omega
        exact ⟨_, instructions_rotate hj hkn, controlledPhase_operands _ (wireAt_ne hj hkn hk)⟩
    obtain ⟨gs', hgs', hn'⟩ := hs
    refine ⟨gs' ++ gs, ?_, ?_⟩
    · rw [← List.singleton_append, instructions_append, hgs', hgs, List.map_append]
    · intro g hg
      rcases List.mem_append.1 hg with hg | hg
      · exact hn' g hg
      · exact hn g hg

/-! ## the stages -/

section
attribute [local instance] atLeastTwo_two

/-- both values with equal weight, the value one turned by an angle -/
def turned (t : ℝ) : Bool → ℂ := fun b => (if b then exp (t * I) else 1) / (√2 : ℂ)

/-- the angle that the bits before place `j` of the input give to a wire -/
def angle (x : Basis (Wire [quantumRegister n])) (j : Nat) (w : Wire [quantumRegister n]) : ℝ :=
  ∑ v, if (place w ≤ place v ∧ place v < j) ∧ x v then Real.pi / 2 ^ (place v - place w) else 0

end

/-- column `j` when the wires before `k` are rotated: `k = 0` is its beginning -/
def rotating (x : Basis (Wire [quantumRegister n])) (j k : Nat) :
    Wire [quantumRegister n] → Bool → ℂ :=
  fun w =>
    if place w < k then turned (angle x (j + 1) w)
    else if place w < j then turned (angle x j w)
    else ket (x w)

/-- the factors before column `j` -/
def stage (x : Basis (Wire [quantumRegister n])) (j : Nat) : Wire [quantumRegister n] → Bool → ℂ :=
  fun w => if place w < j then turned (angle x j w) else ket (x w)

theorem rotating_zero (x : Basis (Wire [quantumRegister n])) (j : Nat) :
    rotating x j 0 = stage x j := by
  funext w
  rw [rotating, if_neg (Nat.not_lt_zero _), stage]

/-- one more column adds the bit of its wire -/
theorem angle_succ (x : Basis (Wire [quantumRegister n])) {j : Nat} (hj : j < n)
    {w : Wire [quantumRegister n]} (hw : place w ≤ j) :
    angle x (j + 1) w
      = angle x j w + if x (wireAt hj) then Real.pi / 2 ^ (j - place w) else 0 := by
  have hsplit (v : Wire [quantumRegister n]) :
      (if (place w ≤ place v ∧ place v < j + 1) ∧ x v then Real.pi / 2 ^ (place v - place w) else 0)
        = (if (place w ≤ place v ∧ place v < j) ∧ x v then Real.pi / 2 ^ (place v - place w) else 0)
          + if v = wireAt hj then if x v then Real.pi / 2 ^ (place v - place w) else 0 else 0 := by
    by_cases hv : place v = j
    · have he := (eq_wireAt_iff hj v).2 hv
      simp [he, hw]
    · have he : v ≠ wireAt hj := fun e => hv ((eq_wireAt_iff hj v).1 e)
      have h1 : (place w ≤ place v ∧ place v < j + 1) ↔ (place w ≤ place v ∧ place v < j) := by
        omega
      simp only [h1, if_neg he, add_zero]
  rw [angle, Finset.sum_congr rfl fun v _ => hsplit v, Finset.sum_add_distrib, Finset.sum_ite_eq',
    if_pos (Finset.mem_univ _), place_wireAt]
  rfl

/-- no column has reached the wire yet -/
theorem angle_self (x : Basis (Wire [quantumRegister n])) {j : Nat} {w : Wire [quantumRegister n]}
    (hw : place w = j) : angle x j w = 0 := by
  apply Finset.sum_eq_zero
  intro v _
  rw [if_neg]
  omega

theorem turned_add (s t : ℝ) (b : Bool) :
    turned (s + t) b = (if b then exp (t * I) else 1) * turned s b := by
  cases b
  · simp [turned]
  · simp only [turned, if_true, ofReal_add, add_mul, exp_add]
    ring

/-- a Hadamard gate turns a bit by half a turn or not at all -/
theorem slanted_eq_turned (b : Bool) : slanted b = turned (if b then Real.pi else 0) := by
  funext a
  cases a <;> cases b <;> simp [slanted, turned, exp_pi_mul_I]

/-! ## one column -/

variable {classical : List Register}

/-- the rotation by wire `k` brings its angle up to date -/
theorem run_rotate (x : Basis (Wire [quantumRegister n])) {j k : Nat} (hj : j < n) (hk : k < j)
    (memory : Bit → Bool) :
    run [quantumRegister n] classical (instructions [.rotate j k])
        ⟨memory, tensor (rotating x j k)⟩
      = [⟨memory, tensor (rotating x j (k + 1))⟩] := by
  have hkn : k < n := by omega
  have hne := wireAt_ne hj hkn hk
  have hcontrol : rotating x j k (wireAt hj) = ket (x (wireAt hj)) := by
    rw [rotating, place_wireAt, if_neg (by omega), if_neg (by omega)]
  rw [instructions_rotate hj hkn, run_gates _ (controlledPhase_operands _ hne) _ rfl,
    controlledPhase_mulVec_tensor _ hne _ _ hcontrol]
  congr 3
  funext w
  by_cases hw : w = wireAt hkn
  · subst hw
    funext c
    have ha := angle_succ x hj (w := wireAt hkn) (by rw [place_wireAt]; omega)
    have h1 : rotating x j k (wireAt hkn) = turned (angle x j (wireAt hkn)) := by
      rw [rotating, place_wireAt, if_neg (lt_irrefl k), if_pos hk]
    have h2 : rotating x j (k + 1) (wireAt hkn) = turned (angle x (j + 1) (wireAt hkn)) := by
      rw [rotating, place_wireAt, if_pos (Nat.lt_succ_self k)]
    rw [Function.update_self, h1, h2, ha, turned_add, place_wireAt]
    cases x (wireAt hj) <;> cases c <;> simp [Phase.piOver]
  · have hp : place w ≠ k := fun e => hw ((eq_wireAt_iff hkn w).2 e)
    have hlt : place w < k + 1 ↔ place w < k := by omega
    rw [Function.update_of_ne hw]
    simp only [rotating, hlt]

theorem run_rotations (x : Basis (Wire [quantumRegister n])) {j : Nat} (hj : j < n)
    (memory : Bit → Bool) (k : Nat) (hk : k ≤ j) :
    run [quantumRegister n] classical (instructions ((List.range k).map (.rotate j)))
        ⟨memory, tensor (stage x j)⟩
      = [⟨memory, tensor (rotating x j k)⟩] := by
  induction k with
  | zero =>
    rw [rotating_zero]
    rfl
  | succ k ih =>
    rw [List.range_succ, List.map_append, instructions_append,
      run_append_of_eq (ih (by omega)), List.map_singleton, run_rotate x hj (by omega)]

/-- a column takes every wire one stage further -/
theorem run_column (x : Basis (Wire [quantumRegister n])) {j : Nat} (hj : j < n)
    (memory : Bit → Bool) :
    run [quantumRegister n] classical (instructions (column j)) ⟨memory, tensor (stage x j)⟩
      = [⟨memory, tensor (stage x (j + 1))⟩] := by
  have hops : ∀ g ∈ [(Gate.h (wireAt hj) : Gate ℝ _)], g.operands.Nodup := by
    intro g hg
    rw [List.mem_singleton.1 hg]
    exact List.nodup_singleton _
  rw [column, instructions_append, run_append_of_eq (run_rotations x hj memory j le_rfl),
    instructions_turn hj, run_gates _ hops _ rfl, gatesOperator_mulVec_cons,
    gatesOperator_mulVec_nil, Gate.operator, onWire_mulVec_tensor]
  congr 3
  funext w
  by_cases hw : w = wireAt hj
  · subst hw
    have ha := angle_succ x hj (w := wireAt hj) le_rfl
    rw [angle_self x (place_wireAt hj), zero_add, place_wireAt, Nat.sub_self, pow_zero,
      div_one] at ha
    rw [Function.update_self, rotating, stage, place_wireAt, if_neg (lt_irrefl j),
      if_neg (lt_irrefl j), if_pos (Nat.lt_succ_self j), hadamard_mulVec_ket, slanted_eq_turned, ha]
  · have hp : place w ≠ j := fun e => hw ((eq_wireAt_iff hj w).2 e)
    have hlt : place w < j + 1 ↔ place w < j := by omega
    rw [Function.update_of_ne hw]
    simp only [rotating, stage, hlt]
    split <;> rfl

/-- all columns one after the other -/
theorem run_steps (x : Basis (Wire [quantumRegister n])) (memory : Bit → Bool) (j : Nat)
    (hj : j ≤ n) :
    run [quantumRegister n] classical (instructions (steps j)) ⟨memory, tensor (stage x 0)⟩
      = [⟨memory, tensor (stage x j)⟩] := by
  induction j with
  | zero => rfl
  | succ j ih =>
    rw [steps_succ, instructions_append, run_append_of_eq (ih (by omega)), run_column x (by omega)]

/-! ## the last stage as amplitudes -/

/-- the number of an input, its first wire counting most -/
def inputNumber (x : Basis (Wire [quantumRegister n])) : Nat :=
  ∑ w, if x w then 2 ^ (n - 1 - place w) else 0

/-- the number of an output, its first wire counting one -/
def outputNumber (y : Basis (Wire [quantumRegister n])) : Nat :=
  ∑ w, if y w then 2 ^ place w else 0

theorem card_wire : Fintype.card (Wire [quantumRegister n]) = n := by
  have e : Wire [quantumRegister n] ≃ Fin n :=
    { toFun := fun w => ⟨place w, place_lt w⟩
      invFun := fun i => wireAt i.2
      left_inv := fun w => ((eq_wireAt_iff (place_lt w) w).2 rfl).symm
      right_inv := fun _ => rfl }
  rw [Fintype.card_congr e, Fintype.card_fin]

/-- what the bit at `v` adds to the angle of `w` is its share of the number, up to whole turns -/
theorem exp_share (v w : Wire [quantumRegister n]) :
    exp ((if place w ≤ place v then Real.pi / 2 ^ (place v - place w) else 0 : ℝ) * I)
      = exp (2 * Real.pi * I * 2 ^ (n - 1 - place v) * 2 ^ place w / 2 ^ n) := by
  have hv := place_lt v
  by_cases h : place w ≤ place v
  · have hn : n = (n - 1 - place v) + (place v - place w) + place w + 1 := by omega
    have hp : (2 : ℂ) ^ n
        = 2 ^ (n - 1 - place v) * 2 ^ (place v - place w) * 2 ^ place w * 2 := by
      rw [← pow_add, ← pow_add, ← pow_succ, ← hn]
    rw [if_pos h, hp]
    congr 1
    push_cast
    field_simp
  · have hn : (n - 1 - place v) + place w = (place w - place v - 1) + n := by omega
    have hp : (2 : ℂ) ^ (n - 1 - place v) * 2 ^ place w = 2 ^ (place w - place v - 1) * 2 ^ n := by
      rw [← pow_add, ← pow_add, hn]
    have hturns : 2 * Real.pi * I * 2 ^ (n - 1 - place v) * 2 ^ place w / 2 ^ n
        = ((2 ^ (place w - place v - 1) : ℕ) : ℂ) * (2 * Real.pi * I) := by
      rw [mul_assoc (2 * Real.pi * I), hp]
      push_cast
      field_simp
    rw [if_neg h, hturns, exp_nat_mul_two_pi_mul_I, ofReal_zero, zero_mul, exp_zero]

/-- after all columns the angle of a wire is the number of the input times the worth of the wire -/
theorem exp_angle (x : Basis (Wire [quantumRegister n])) (w : Wire [quantumRegister n]) :
    exp (angle x n w * I) = exp (2 * Real.pi * I * inputNumber x * 2 ^ place w / 2 ^ n) := by
  have hl : (angle x n w : ℂ) * I
      = ∑ v, (if x v then
          (if place w ≤ place v then Real.pi / 2 ^ (place v - place w) else 0 : ℝ) * I else 0) := by
    rw [angle, ofReal_sum, Finset.sum_mul]
    apply Finset.sum_congr rfl
    intro v _
    by_cases hx : x v
    · simp [hx, place_lt v]
    · simp [hx]
  have hr : 2 * Real.pi * I * inputNumber x * 2 ^ place w / 2 ^ n
      = ∑ v, if x v then 2 * Real.pi * I * 2 ^ (n - 1 - place v) * 2 ^ place w / 2 ^ n else 0 := by
    rw [inputNumber, Nat.cast_sum, Finset.mul_sum, Finset.sum_mul, Finset.sum_div]
    apply Finset.sum_congr rfl
    intro v _
    by_cases hx : x v
    · simp [hx]
    · simp [hx]
  rw [hl, hr, exp_sum, exp_sum]
  apply Finset.prod_congr rfl
  intro v _
  by_cases hx : x v
  · rw [if_pos hx, if_pos hx, exp_share]
  · rw [if_neg hx, if_neg hx]

theorem tensor_stage (x y : Basis (Wire [quantumRegister n])) :
    tensor (stage x n) y
      = exp (2 * Real.pi * I * inputNumber x * outputNumber y / 2 ^ n) / (√2 : ℂ) ^ n := by
  have hw (w : Wire [quantumRegister n]) : stage x n w (y w)
      = exp (if y w then 2 * Real.pi * I * inputNumber x * 2 ^ place w / 2 ^ n else 0)
          / (√2 : ℂ) := by
    rw [stage, if_pos (place_lt w), turned]
    by_cases hy : y w
    · rw [if_pos hy, if_pos hy, exp_angle]
    · rw [if_neg hy, if_neg hy, exp_zero]
  have hsum : ∑ w, (if y w then 2 * Real.pi * I * inputNumber x * 2 ^ place w / 2 ^ n else 0)
      = 2 * Real.pi * I * inputNumber x * outputNumber y / 2 ^ n := by
    rw [outputNumber, Nat.cast_sum, Finset.mul_sum, Finset.sum_div]
    apply Finset.sum_congr rfl
    intro w _
    by_cases hy : y w
    · simp [hy]
    · simp [hy]
  rw [tensor, Finset.prod_congr rfl fun w _ => hw w, Finset.prod_div_distrib, ← exp_sum, hsum,
    Finset.prod_const, Finset.card_univ, card_wire]

end

/-! ## the steps that can be written -/

theorem nearestBits_two_pow (e : Nat) :
    Decimal.nearestBits (2 ^ e) 1 = (e + 1023) * Decimal.hiddenBit := by
  have hlog : Decimal.floorLog2 (2 ^ e) 1 = e := by
    have h1 : Nat.log2 1 = 0 := by decide
    simp [Decimal.floorLog2, Decimal.pow2, h1]
  have hq : max ((e : Int) - 52) Decimal.leastExponent = e - 52 := by
    rw [Decimal.leastExponent]
    omega
  have hround : Decimal.roundDiv (2 ^ e * Decimal.pow2 (-(e - 52))) (1 * Decimal.pow2 (e - 52))
      = Decimal.hiddenBit := by
    have hp : 2 ^ e * Decimal.pow2 (-(e - 52))
        = Decimal.hiddenBit * (1 * Decimal.pow2 (e - 52)) := by
      rw [Decimal.pow2, Decimal.pow2, one_mul, Decimal.hiddenBit, ← pow_add, ← pow_add]
      congr 1
      omega
    have h0 : 0 < 1 * Decimal.pow2 (e - 52) := by
      rw [Decimal.pow2, one_mul]
      exact Nat.two_pow_pos _
    rw [hp, Decimal.roundDiv, Nat.mul_mod_left, Nat.mul_div_cancel _ h0, if_pos (by omega)]
  have hne : 2 ^ e ≠ 0 := (Nat.two_pow_pos e).ne'
  have hfield : ((e : Int) - 52 - Decimal.leastExponent).toNat = e + 1022 := by
    rw [Decimal.leastExponent]
    omega
  rw [Decimal.nearestBits, if_neg hne, hlog]
  simp only [hq, hround, hfield]
  ring

/-- the angle of a rotation can be written while the power of two has at most 1024 bits -/
theorem isWritable_rotate (j k : Nat) : (Step.rotate j k).isWritable = decide (j - k < 1024) := by
  rw [Step.isWritable, Decimal.isInRange, nearestBits_two_pow, Decimal.infinityBits,
    decide_eq_decide, Nat.mul_lt_mul_right (by decide), Decimal.topField]
  omega

theorem all_isWritable_column {j : Nat} (hj : j < 1024) :
    (column j).all Step.isWritable = true := by
  rw [List.all_eq_true]
  intro s hs
  rw [column, List.mem_append, List.mem_map, List.mem_singleton] at hs
  rcases hs with ⟨k, _, rfl⟩ | rfl
  · rw [isWritable_rotate, decide_eq_true_iff]
    omega
  · rfl

/-- already the first rotation of column 1024 cannot be written -/
theorem takeWhile_isWritable_column : (column 1024).takeWhile Step.isWritable = [] := by
  have h : (Step.rotate 1024 0).isWritable = false := by
    rw [isWritable_rotate]
    rfl
  rw [column, List.range_succ_eq_map, List.map_cons, List.cons_append,
    List.takeWhile_cons_of_neg (by rw [h]; exact Bool.false_ne_true)]

theorem emittedFrom_eq (count : Nat) : ∀ j ≤ 1024, emittedFrom count j
    = ((List.range' j (min (j + count) 1024 - j)).flatMap column, decide (j + count ≤ 1024)) := by
  induction count with
  | zero =>
    intro j hj
    have h0 : min (j + 0) 1024 - j = 0 := by omega
    rw [emittedFrom, h0, decide_eq_true (by omega)]
    rfl
  | succ count ih =>
    intro j hj
    by_cases h : j < 1024
    · have hlen : min (j + (count + 1)) 1024 - j = min (j + 1 + count) 1024 - (j + 1) + 1 := by
        omega
      have hdone : j + (count + 1) ≤ 1024 ↔ j + 1 + count ≤ 1024 := by omega
      rw [emittedFrom, if_pos (all_isWritable_column h), ih (j + 1) h, hlen, List.range'_succ,
        List.flatMap_cons]
      simp only [hdone]
    · obtain rfl : j = 1024 := by omega
      have hnot : ¬ (column 1024).all Step.isWritable = true := by
        intro hall
        rw [List.all_eq_true] at hall
        have := List.takeWhile_eq_self_iff.2 hall
        rw [takeWhile_isWritable_column] at this
        have := congrArg List.length this
        rw [column_length] at this
        simp at this
      have h0 : min (1024 + (count + 1)) 1024 - 1024 = 0 := by omega
      rw [emittedFrom, if_neg hnot, takeWhile_isWritable_column, h0, decide_eq_false (by omega)]
      rfl

/-- a transform of more than 1024 qubits stops after 1024 columns -/
theorem emitted_eq (n : Nat) : emitted n = (steps (min n 1024), decide (n ≤ 1024)) := by
  rw [emitted, emittedFrom_eq n 0 (by omega), Nat.zero_add, Nat.sub_zero, steps,
    List.range_eq_range']

/-! ## the gates that are added -/

/-- the gates of the transform of `n` qubits as they are added to a circuit -/
def added (n : Nat) : List (Gate Number String) :=
  (gates n).map (Gate.map fun i => (qubit i).text)

theorem calls_instructions (n : Nat) :
    (instructions (θ := Number) (steps n)).flatMap Instruction.calls = (added n).map .gate := by
  -- no gate is guarded, so each is one call
  have hcalls (g : Gate Number Nat) : Instruction.calls (.gate (g.map qubit) none)
      = [.gate (g.map fun i => (qubit i).text)] := by
    cases g <;> rfl
  rw [instructions, List.flatMap_map, added, List.map_map, gates, List.map_eq_flatMap]
  simp only [hcalls]
  rfl

theorem perform_transform (n : Nat) (σ : Session) :
    (Generate.Fourier.transform n).perform σ
      = (if n ≤ 1024 then .ok () else .error (.number .wholeTooLarge),
          σ.say (((added (min n 1024)).map Call.gate).map .call)) := by
  rw [Generate.Fourier.transform, Int.toNat_natCast, emitted_eq, ← calls_instructions]
  by_cases h : n ≤ 1024
  · rw [if_pos h, decide_eq_true h]
    rfl
  · rw [if_neg h, decide_eq_false h]
    rfl

theorem legible_instructions {θ : Type} [Phase θ] (ss : List Step) :
    ∀ i ∈ instructions (θ := θ) ss, i.Legible := by
  have hqubit (i : Nat) : '[' ∉ (qubit i).register.toList := by
    show '[' ∉ "q".toList
    decide
  intro i hi
  obtain ⟨g, _, rfl⟩ := List.mem_map.1 hi
  intro q hq
  rw [Gate.operands_map] at hq
  obtain ⟨k, _, rfl⟩ := List.mem_map.1 hq
  exact hqubit k

section
attribute [local instance] atLeastTwo_two

/-- the machine angles of a transform of `n` qubits are read as the exact ones -/
def ReadsAngles (n : Nat) (read : Number → ℝ) : Prop :=
  ∀ e, 1 ≤ e → e < n → Reads read (Phase.piOver e) (Real.pi / 2 ^ e)

end

theorem Step.gates_withAngles {n : Nat} {read : Number → ℝ} (h : ReadsAngles n read) {s : Step}
    (hs : s.fits n) : s.gates.map (Gate.withAngles read) = s.gates := by
  cases s with
  | turn j => rfl
  | rotate j k =>
    obtain ⟨hj, hk⟩ := hs
    exact (h (j - k) (by omega) (by omega)).controlledPhase j k

theorem instructions_withAngles {n : Nat} {read : Number → ℝ} (h : ReadsAngles n read) :
    (instructions (steps n)).map (Instruction.withAngles read) = instructions (steps n) := by
  have hgates : (gates n).map (Gate.withAngles read) = gates n := by
    rw [gates, gates, List.map_flatMap]
    exact List.flatMap_congr fun s hs => Step.gates_withAngles h (fits_of_mem_steps s hs)
  have hmap (g : Gate Number Nat) :
      (g.map qubit).withAngles read = (g.withAngles read).map qubit := by
    cases g <;> rfl
  rw [instructions, instructions, ← gates, ← gates, ← hgates, List.map_map, List.map_map]
  simp only [Function.comp_def, Instruction.withAngles, hmap]

/-- **The transform is the discrete Fourier transform.**  The gates of its steps, with exact
angles, are a unitary that sends a basis state to all basis states with one weight, turned by the
product of the two numbers.  The job makes the calls for the gates of these steps, or of the first
1024 columns of them; what the calls record, with its machine angles read as the exact ones, is that
unitary. -/
theorem instructions_denote_transform (n : Nat) (σ : Session) :
    (∃ U ∈ unitaryGroup (Basis (Wire [quantumRegister n])) ℂ,
      operator? [quantumRegister n] (instructions (steps n)) = some U ∧
      (∀ x y, (U *ᵥ Pi.single x 1) y
        = exp (2 * Real.pi * I * inputNumber x * outputNumber y / 2 ^ n) / (√2 : ℂ) ^ n) ∧
      ∀ (c : Circuit Number) (read : Number → ℝ), ReadsAngles n read →
        ∃ is, c.continued? ((added n).map .gate) = some { c with body := c.body ++ is } ∧
          operator? [quantumRegister n] (is.map (Instruction.withAngles read)) = some U) ∧
    (Generate.Fourier.transform n).perform σ
      = (if n ≤ 1024 then .ok () else .error (.number .wholeTooLarge),
          σ.say (((added (min n 1024)).map Call.gate).map .call)) := by
  refine ⟨?_, perform_transform n σ⟩
  obtain ⟨gs, hgs, hn⟩ := exists_gates_of_fits (steps n) (fits_of_mem_steps (n := n))
  have hoperator : operator? [quantumRegister n] (instructions (steps n))
      = some (gatesOperator gs) := by
    rw [hgs, operator?_gates gs hn]
  refine ⟨gatesOperator gs, gatesOperator_mem_unitaryGroup gs hn, hoperator, ?_, ?_⟩
  · intro x y
    have hrun := @run_steps n [] x (fun _ => false) n le_rfl
    have h0 : stage x 0 = fun w => ket (x w) := by
      funext w
      rw [stage, if_neg (Nat.not_lt_zero _)]
    rw [hgs, run_gates gs hn _ rfl, h0, ← single_eq_tensor] at hrun
    have hstate : gatesOperator gs *ᵥ Pi.single x 1 = tensor (stage x n) :=
      congrArg Branch.state (List.singleton_inj.1 hrun)
    rw [hstate, tensor_stage]
  · intro c read hread
    refine ⟨instructions (steps n), ?_, ?_⟩
    · rw [← calls_instructions, c.continued?_instructions (legible_instructions _)]
    · rw [instructions_withAngles hread, hoperator]

section
attribute [local instance] atLeastTwo_two

/-- machine numbers as multiples of the half turn that the machine has -/
def halfTurns : Number → ℝ
  | .whole k => k
  | .real x =>
    (Decimal.fraction? x).elim 0 fun p => p.1 / 2 ^ p.2 * (Real.pi * 2 ^ 51 / 7074237752028440)

end

theorem halfTurns_real {x : Float} {m : Int} {k : Nat} (h : Decimal.fraction? x = some (m, k)) :
    halfTurns (.real x) = m / 2 ^ k * (Real.pi * 2 ^ 51 / 7074237752028440) := by
  rw [halfTurns, h]
  rfl

theorem readsAngles_halfTurns : ReadsAngles 3 halfTurns := by
  have hfractions : ∀ e ∈ [1, 2],
      Decimal.fraction? (Number.half (Phase.piOver e)) = some (7074237752028440, 52 + e) ∧
        Decimal.fraction? (Number.half (Phase.neg (Phase.piOver e)))
          = some (-7074237752028440, 52 + e) := by
    decide +kernel
  intro e h1 h3
  obtain ⟨hhalf, hneg⟩ := hfractions e (by simp only [List.mem_cons, List.not_mem_nil]; omega)
  have hpower : (2 : ℝ) ^ (52 + e) = 2 ^ 51 * 2 * 2 ^ e := by
    rw [← pow_succ, ← pow_add]
  refine ⟨(halfTurns_real hhalf).trans ?_, (halfTurns_real hneg).trans ?_⟩
  · rw [hpower]
    push_cast
    field_simp
  · rw [hpower]
    push_cast
    field_simp

/-- three qubits, whose rotations are by a quarter and an eighth of a turn -/
theorem three_qubits_denote_transform :
    ∃ U ∈ unitaryGroup (Basis (Wire [quantumRegister 3])) ℂ,
      (∀ x y, (U *ᵥ Pi.single x 1) y
        = exp (2 * Real.pi * I * inputNumber x * outputNumber y / 2 ^ 3) / (√2 : ℂ) ^ 3) ∧
      ∃ is, Circuit.blank.continued? ((added 3).map .gate)
          = some { Circuit.blank with body := is } ∧
        operator? [quantumRegister 3] (is.map (Instruction.withAngles halfTurns)) = some U := by
  obtain ⟨⟨U, hU, _, hentries, hrecord⟩, _⟩ := instructions_denote_transform 3 .initial
  exact ⟨U, hU, hentries, hrecord _ halfTurns readsAngles_halfTurns⟩

end

end CircuitBench.Fourier
