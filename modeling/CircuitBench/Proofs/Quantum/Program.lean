import CircuitBench.Circuit.Basic
import CircuitBench.Proofs.Quantum.Tensor

/-!
# Runs of circuits

The wires of a circuit are the bits of its quantum registers.  A run keeps a list of branches, one
for each sequence of measured values so far: what the classical bits hold, and a state whose squared
length is the probability of the branch.  An instruction that names no bit of the circuit, or one
bit twice, leaves no branch.

* `Wire rs`          the bits of registers;
* `placed`           a gate on bits as a gate on wires;
* `step`, `run`      one instruction, and a list of them;
* `chance`           the probability that the classical bits end up with a property;
* `operator?`        the unitary of instructions that neither measure nor depend on a guard.

`run_gates`, `run_guarded` and `chance_measureBits` say what the three kinds of instructions do.
-/

namespace CircuitBench

open Matrix Complex Quantum

noncomputable section

/-! ## exact angles -/

section
variable {θ θ' ω ω' : Type}

/-- the gate with its angles read by `f` -/
def Gate.withAngles (f : θ → θ') : Gate θ ω → Gate θ' ω
  | .h q => .h q
  | .x q => .x q
  | .cx control target => .cx control target
  | .u1 lam q => .u1 (f lam) q
  | .u2 phi lam q => .u2 (f phi) (f lam) q
  | .u3 theta phi lam q => .u3 (f theta) (f phi) (f lam) q

def Instruction.withAngles (f : θ → θ') : Instruction θ → Instruction θ'
  | .gate g guard => .gate (g.withAngles f) guard
  | .barrier register => .barrier register
  | .measure source target => .measure source target
  | .measureAll source target => .measureAll source target

def Circuit.withAngles (f : θ → θ') (c : Circuit θ) : Circuit θ' where
  quantum := c.quantum
  classical := c.classical
  body := c.body.map (Instruction.withAngles f)

/-- the gate on the operands that `f` gives, if it gives all of them -/
def Gate.traverse (f : ω → Option ω') : Gate θ ω → Option (Gate θ ω')
  | .h q => (f q).map .h
  | .x q => (f q).map .x
  | .cx control target => (f control).bind fun c => (f target).map (.cx c)
  | .u1 lam q => (f q).map (.u1 lam)
  | .u2 phi lam q => (f q).map (.u2 phi lam)
  | .u3 theta phi lam q => (f q).map (.u3 theta phi lam)

theorem Gate.traverse_map (f : ω → Option ω') (e : ω' → ω) (h : ∀ w, f (e w) = some w)
    (g : Gate θ ω') : (g.map e).traverse f = some g := by
  cases g <;> simp [Gate.map, Gate.traverse, h]

end

def Instruction.isMeasurement {θ : Type} : Instruction θ → Bool
  | .measure _ _ => true
  | .measureAll _ _ => true
  | _ => false

/-- the instructions before the first measurement -/
def Circuit.unmeasured {θ : Type} (c : Circuit θ) : List (Instruction θ) :=
  c.body.takeWhile fun i => !i.isMeasurement

namespace Quantum

/-! ## wires -/

instance (rs : List Register) (b : Bit) : Decidable (b.inside rs) :=
  inferInstanceAs (Decidable (∃ r ∈ rs, r.name = b.register ∧ 0 ≤ b.index ∧ b.index < r.size))

/-- a bit of the registers -/
abbrev Wire (rs : List Register) := {b : Bit // b.inside rs}

theorem mem_bits_iff (r : Register) (b : Bit) :
    b ∈ r.bits ↔ r.name = b.register ∧ 0 ≤ b.index ∧ b.index < r.size := by
  simp only [Register.bits, List.mem_map, mem_indices]
  constructor
  · rintro ⟨i, hi, rfl⟩
    exact ⟨rfl, hi⟩
  · rintro ⟨hr, hi⟩
    exact ⟨b.index, hi, by rw [hr]⟩

instance (rs : List Register) : Fintype (Wire rs) :=
  Fintype.subtype (rs.flatMap Register.bits).toFinset fun b => by
    simp [mem_bits_iff, Bit.inside]

/-! ### one register -/

theorem inside_singleton (r : Register) (b : Bit) :
    b.inside [r] ↔ r.name = b.register ∧ 0 ≤ b.index ∧ b.index < r.size := by
  simp [Bit.inside]

/-- the wires of one register differ in their indices -/
theorem wire_ext {r : Register} {v w : Wire [r]} (h : v.1.index = w.1.index) : v = w := by
  have hv := (inside_singleton r v.1).1 v.2
  have hw := (inside_singleton r w.1).1 w.2
  obtain ⟨⟨rv, iv⟩, _⟩ := v
  obtain ⟨⟨rw', iw⟩, _⟩ := w
  simp only at h hv hw
  have hr : rv = rw' := hv.1.symm.trans hw.1
  subst h hr
  rfl

theorem wire_val {r : Register} (w : Wire [r]) : w.1 = ⟨r.name, w.1.index⟩ := by
  obtain ⟨⟨register, index⟩, h⟩ := w
  have hr : r.name = register := ((inside_singleton r _).1 h).1
  rw [hr]

/-! ### operands as wires -/

def wire? (rs : List Register) (b : Bit) : Option (Wire rs) :=
  if h : b.inside rs then some ⟨b, h⟩ else none

theorem wire?_val (rs : List Register) (w : Wire rs) : wire? rs w.1 = some w := by
  rw [wire?, dif_pos w.2]

/-- a gate on different bits of the registers as a gate on wires -/
def placed (rs : List Register) (g : Gate ℝ Bit) : Option (Gate ℝ (Wire rs)) :=
  if g.operands.Nodup then g.traverse (wire? rs) else none

theorem placed_map_val (rs : List Register) (g : Gate ℝ (Wire rs)) (h : g.operands.Nodup) :
    placed rs (g.map Subtype.val) = some g := by
  have hn : (g.map Subtype.val).operands.Nodup := by
    rw [Gate.operands_map]
    exact h.map Subtype.val_injective
  rw [placed, if_pos hn, Gate.traverse_map _ _ (wire?_val rs)]

def wires {rs : List Register} (bs : List Bit) (h : ∀ b ∈ bs, b.inside rs) : List (Wire rs) :=
  bs.attachWith (fun b => b.inside rs) h

theorem mem_wires {rs : List Register} {bs : List Bit} (h : ∀ b ∈ bs, b.inside rs) (w : Wire rs) :
    w ∈ wires bs h ↔ w.1 ∈ bs := by
  simp [wires]

theorem wires_nodup {rs : List Register} {bs : List Bit} (h : ∀ b ∈ bs, b.inside rs)
    (hbs : bs.Nodup) : (wires bs h).Nodup := by
  apply List.Nodup.of_map Subtype.val
  rwa [wires, List.attachWith_map_subtype_val]

theorem map_wires {rs : List Register} {bs : List Bit} (h : ∀ b ∈ bs, b.inside rs) {β : Type}
    (f : Bit → β) : (wires bs h).map (fun w => f w.1) = bs.map f := by
  have hv := congrArg (List.map f) (List.attachWith_map_subtype_val h)
  rwa [List.map_map] at hv

/-! ## what classical registers hold -/

/-- the number in a register, its first bit counting one -/
def registerValue (r : Register) (memory : Bit → Bool) : Nat :=
  ((List.range r.size.toNat).map fun i : Nat => if memory ⟨r.name, i⟩ then 2 ^ i else 0).sum

/-- the bits of a register, the last one written first -/
def registerText (r : Register) (memory : Bit → Bool) : String :=
  String.ofList
    ((List.range r.size.toNat).reverse.map fun i : Nat => if memory ⟨r.name, i⟩ then '1' else '0')

/-- whether a guard lets its gate pass; `none` if it asks for an unknown register -/
def passes? (classical : List Register) (memory : Bit → Bool) : Option Guard → Option Bool
  | none => some true
  | some g =>
    (classical.find? fun r => r.name = g.register).map fun r => registerValue r memory == g.value

/-! ## runs -/

/-- one sequence of measured values -/
structure Branch (quantum : List Register) where
  memory : Bit → Bool
  state : State (Wire quantum)

/-- all bits are zero -/
def Branch.initial (quantum : List Register) : Branch quantum where
  memory := fun _ => false
  state := Pi.single (fun _ => false) 1

/-- the part of a state in which the wire `q` holds `v` -/
def observed {ω : Type} (q : ω) (v : Bool) (ψ : State ω) : State ω :=
  fun x => if x q = v then ψ x else 0

theorem observed_smul {ω : Type} (q : ω) (v : Bool) (c : ℂ) (ψ : State ω) :
    observed q v (c • ψ) = c • observed q v ψ := by
  funext x
  simp only [observed, Pi.smul_apply, smul_ite, smul_zero]

theorem observed_add {ω : Type} (q : ω) (v : Bool) (ψ χ : State ω) :
    observed q v (ψ + χ) = observed q v ψ + observed q v χ := by
  funext x
  by_cases h : x q = v
  · simp only [observed, Pi.add_apply, if_pos h]
  · simp only [observed, Pi.add_apply, if_neg h, add_zero]

section
variable (quantum classical : List Register)

/-- measure one bit into another: one branch for each value -/
def measureBit (source target : Bit) (b : Branch quantum) : List (Branch quantum) :=
  match wire? quantum source with
  | some q =>
    if target.inside classical then
      [false, true].map fun v => ⟨Function.update b.memory target v, observed q v b.state⟩
    else []
  | none => []

def measureBits : List (Bit × Bit) → Branch quantum → List (Branch quantum)
  | [], b => [b]
  | p :: ps, b => (measureBit quantum classical p.1 p.2 b).flatMap (measureBits ps)

def step : Instruction ℝ → Branch quantum → List (Branch quantum)
  | .gate g guard, b =>
    match placed quantum g, passes? classical b.memory guard with
    | some g, some true => [{ b with state := g.operator *ᵥ b.state }]
    | some _, some false => [b]
    | _, _ => []
  | .barrier _, b => [b]
  | .measure source target, b => measureBit quantum classical source target b
  | .measureAll source target, b =>
    match quantum.find? fun r => r.name = source with
    | some r => measureBits quantum classical (r.bits.map fun q => (q, ⟨target, q.index⟩)) b
    | none => []

def run : List (Instruction ℝ) → Branch quantum → List (Branch quantum)
  | [], b => [b]
  | i :: is, b => (step quantum classical i b).flatMap (run is)

/-- the unitary of gates without guards and of barriers; `none` for anything else -/
def operator? : List (Instruction ℝ) → Option (Operator (Wire quantum))
  | [] => some 1
  | .gate g none :: is => (placed quantum g).bind fun g => (operator? is).map (· * g.operator)
  | .barrier _ :: is => operator? is
  | _ :: _ => none

variable {quantum}

/-- the probability of the branches whose classical bits have a property -/
def chance (P : (Bit → Bool) → Prop) [DecidablePred P] (bs : List (Branch quantum)) : ℝ :=
  (bs.map fun b => if P b.memory then weight b.state else 0).sum

end

end Quantum

/-- the branches at the end of a circuit that starts with all bits zero -/
def Circuit.outcomes (c : Circuit ℝ) : List (Branch c.quantum) :=
  run c.quantum c.classical c.body (.initial c.quantum)

namespace Quantum

section
variable {quantum classical : List Register}

theorem run_append (is js : List (Instruction ℝ)) (b : Branch quantum) :
    run quantum classical (is ++ js) b
      = (run quantum classical is b).flatMap (run quantum classical js) := by
  induction is generalizing b with
  | nil => simp [run]
  | cons i is ih =>
    rw [List.cons_append, run, run, List.flatMap_assoc]
    congr 1
    funext b'
    exact ih b'

/-- the run of a list that leaves one branch goes on from that branch -/
theorem run_append_of_eq {is js : List (Instruction ℝ)} {b b' : Branch quantum}
    (h : run quantum classical is b = [b']) :
    run quantum classical (is ++ js) b = run quantum classical js b' := by
  rw [run_append, h, List.flatMap_singleton]

theorem run_barrier (register : Option String) (is : List (Instruction ℝ)) (b : Branch quantum) :
    run quantum classical (.barrier register :: is) b = run quantum classical is b := by
  rw [run, step, List.flatMap_singleton]

/-- a gate on wires as an instruction on bits -/
def lifted (guard : Option Guard) (g : Gate ℝ (Wire quantum)) : Instruction ℝ :=
  .gate (g.map Subtype.val) guard

/-- gates that pass their guard act on the state -/
theorem run_gates {guard : Option Guard} (gs : List (Gate ℝ (Wire quantum)))
    (hgs : ∀ g ∈ gs, g.operands.Nodup) (b : Branch quantum)
    (hb : passes? classical b.memory guard = some true) :
    run quantum classical (gs.map (lifted guard)) b
      = [{ b with state := gatesOperator gs *ᵥ b.state }] := by
  induction gs generalizing b with
  | nil => simp [run, gatesOperator]
  | cons g gs ih =>
    have hg := placed_map_val quantum g (hgs g List.mem_cons_self)
    rw [List.map_cons, run, lifted, step, hg, hb]
    simp only [List.flatMap_singleton]
    have ih := ih (fun g' h' => hgs g' (List.mem_cons_of_mem g h'))
      ⟨b.memory, g.operator *ᵥ b.state⟩ hb
    rw [ih, gatesOperator_mulVec_cons]

/-- gates that do not pass their guard do nothing -/
theorem run_guarded {guard : Option Guard} (gs : List (Gate ℝ (Wire quantum)))
    (hgs : ∀ g ∈ gs, g.operands.Nodup) (b : Branch quantum)
    (hb : passes? classical b.memory guard = some false) :
    run quantum classical (gs.map (lifted guard)) b = [b] := by
  induction gs with
  | nil => rfl
  | cons g gs ih =>
    have hg := placed_map_val quantum g (hgs g List.mem_cons_self)
    rw [List.map_cons, run, lifted, step, hg, hb]
    simp only [List.flatMap_singleton]
    exact ih fun g' h' => hgs g' (List.mem_cons_of_mem g h')

/-! ## the unitary of a list -/

theorem operator?_gates (gs : List (Gate ℝ (Wire quantum))) (hgs : ∀ g ∈ gs, g.operands.Nodup) :
    operator? quantum (gs.map (lifted none)) = some (gatesOperator gs) := by
  induction gs with
  | nil => rfl
  | cons g gs ih =>
    have hg := placed_map_val quantum g (hgs g List.mem_cons_self)
    rw [List.map_cons, lifted, operator?, hg, ih fun g' h' => hgs g' (List.mem_cons_of_mem g h')]
    rfl

/-! ## measurements -/

/-- the classical bits after wires with the values `x` are measured -/
def recorded (x : Basis (Wire quantum)) :
    List (Wire quantum × Bit) → (Bit → Bool) → Bit → Bool
  | [], memory => memory
  | p :: ps, memory => recorded x ps (Function.update memory p.2 (x p.1))

theorem chance_append (P : (Bit → Bool) → Prop) [DecidablePred P] (bs cs : List (Branch quantum)) :
    chance P (bs ++ cs) = chance P bs + chance P cs := by
  simp [chance]

theorem chance_flatMap (P : (Bit → Bool) → Prop) [DecidablePred P] (bs : List (Branch quantum))
    (f : Branch quantum → List (Branch quantum)) :
    chance P (bs.flatMap f) = (bs.map fun b => chance P (f b)).sum := by
  induction bs with
  | nil => rfl
  | cons b bs ih => rw [List.flatMap_cons, chance_append, ih, List.map_cons, List.sum_cons]

/-- the probability of a property of the classical bits once the wires of `ps` are measured -/
def readChance (P : (Bit → Bool) → Prop) [DecidablePred P] (ps : List (Wire quantum × Bit))
    (memory : Bit → Bool) (ψ : State (Wire quantum)) : ℝ :=
  ∑ x, if P (recorded x ps memory) then normSq (ψ x) else 0

/-- measured wires give their values with the weights of the basis states -/
theorem chance_measureBits (P : (Bit → Bool) → Prop) [DecidablePred P]
    (ps : List (Wire quantum × Bit)) (hps : ∀ p ∈ ps, p.2.inside classical) (b : Branch quantum) :
    chance P (measureBits quantum classical (ps.map fun p => (p.1.1, p.2)) b)
      = readChance P ps b.memory b.state := by
  unfold readChance
  induction ps generalizing b with
  | nil =>
    by_cases h : P b.memory
    · simp [measureBits, chance, recorded, weight, h]
    · simp [measureBits, chance, recorded, h]
  | cons p ps ih =>
    have hp := hps p List.mem_cons_self
    have ih := ih fun p' h' => hps p' (List.mem_cons_of_mem p h')
    rw [List.map_cons, measureBits, measureBit, wire?_val]
    simp only [if_pos hp, chance_flatMap, List.map_cons, List.map_nil, ih, List.sum_cons,
      List.sum_nil, add_zero]
    rw [← Finset.sum_add_distrib]
    apply Finset.sum_congr rfl
    intro x _
    cases hx : x p.1 <;> simp [observed, recorded, hx]

/-- a state that lets the wires have one reading only -/
theorem readChance_of_sure (P : (Bit → Bool) → Prop) [DecidablePred P]
    {ps : List (Wire quantum × Bit)} {memory memory' : Bit → Bool} {ψ : State (Wire quantum)}
    (h : ∀ x, ψ x ≠ 0 → recorded x ps memory = memory') :
    readChance P ps memory ψ = if P memory' then weight ψ else 0 := by
  have hx (x : Basis (Wire quantum)) : (if P (recorded x ps memory) then normSq (ψ x) else 0)
      = if P memory' then normSq (ψ x) else 0 := by
    by_cases h0 : ψ x = 0
    · simp [h0]
    · rw [h x h0]
  simp only [readChance, hx, weight]
  rw [Finset.sum_ite_irrel, Finset.sum_const_zero]

theorem readChance_smul (P : (Bit → Bool) → Prop) [DecidablePred P]
    (ps : List (Wire quantum × Bit)) (memory : Bit → Bool) (c : ℂ) (ψ : State (Wire quantum)) :
    readChance P ps memory (c • ψ) = normSq c * readChance P ps memory ψ := by
  rw [readChance, readChance, Finset.mul_sum]
  apply Finset.sum_congr rfl
  intro x _
  rw [Pi.smul_apply, smul_eq_mul, normSq_mul, mul_ite, mul_zero]

/-- states that have no basis state in common do not disturb each other -/
theorem readChance_add (P : (Bit → Bool) → Prop) [DecidablePred P]
    (ps : List (Wire quantum × Bit)) (memory : Bit → Bool) (ψ χ : State (Wire quantum))
    (h : ∀ x, ψ x = 0 ∨ χ x = 0) :
    readChance P ps memory (ψ + χ)
      = readChance P ps memory ψ + readChance P ps memory χ := by
  rw [readChance, readChance, readChance, ← Finset.sum_add_distrib]
  apply Finset.sum_congr rfl
  intro x _
  rw [Pi.add_apply]
  rcases h x with h | h
  · simp [h]
  · simp [h]

theorem run_measures (ps : List (Bit × Bit)) (b : Branch quantum) :
    run quantum classical (ps.map fun p => .measure p.1 p.2) b
      = measureBits quantum classical ps b := by
  induction ps generalizing b with
  | nil => rfl
  | cons p ps ih =>
    rw [List.map_cons, run, step, measureBits]
    congr 1
    funext b'
    exact ih b'

end

end Quantum

end

end CircuitBench
