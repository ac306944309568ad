import CircuitBench.Proofs.Quantum.Program

/-!
# One register with its last wire set apart

Many circuits have one register of which the last wire takes an answer and the others ask.  Their
states are products in which the last wire has a state of its own, `apart a q`.

* `turns`            a Hadamard gate on every wire but the last;
* `collects`         chosen wires added into the last one;
* `readies`          the last wire made ready to take signs;
* `reads`            every wire but the last measured.

Each comes with the instructions that it stands for, and with what it does to `apart a q`.
-/

namespace CircuitBench.Quantum

open Matrix Complex

noncomputable section

section
variable (name : String) (last : Int)

/-- the register whose last index is `last` -/
abbrev upTo : Register := ⟨name, last + 1⟩

theorem inside_upTo {i : Int} (h : i ∈ indices last) : Bit.inside [upTo name last] ⟨name, i⟩ := by
  rw [mem_indices] at h
  rw [inside_singleton]
  exact ⟨rfl, h.1, by show i < last + 1; omega⟩

/-- the wires at some of the indices before the last one -/
def wiresAt (is : List Int) (h : ∀ i ∈ is, i ∈ indices last) : List (Wire [upTo name last]) :=
  wires (is.map (Bit.mk name)) fun b hb => by
    obtain ⟨i, hi, rfl⟩ := List.mem_map.1 hb
    exact inside_upTo name last (h i hi)

theorem mem_wiresAt {is : List Int} (h : ∀ i ∈ is, i ∈ indices last)
    (w : Wire [upTo name last]) : w ∈ wiresAt name last is h ↔ w.1.index ∈ is := by
  rw [wiresAt, mem_wires, List.mem_map]
  constructor
  · rintro ⟨i, hi, hw⟩
    rwa [← hw]
  · intro hw
    exact ⟨w.1.index, hw, (wire_val w).symm⟩

theorem wiresAt_nodup {is : List Int} (h : ∀ i ∈ is, i ∈ indices last) (hn : is.Nodup) :
    (wiresAt name last is h).Nodup := by
  apply wires_nodup
  apply hn.map
  intro i j hij
  exact (Bit.mk.injEq .. ▸ hij).2

theorem map_wiresAt {is : List Int} (h : ∀ i ∈ is, i ∈ indices last) {β : Type} (f : Bit → β) :
    (wiresAt name last is h).map (fun w => f w.1) = is.map fun i => f ⟨name, i⟩ := by
  rw [wiresAt, map_wires, List.map_map]
  rfl

def lastWire (h : 0 ≤ last) : Wire [upTo name last] :=
  ⟨⟨name, last⟩, by
    rw [inside_singleton]
    exact ⟨rfl, h, by show last < last + 1; omega⟩⟩

theorem eq_lastWire_iff (h : 0 ≤ last) (w : Wire [upTo name last]) :
    w = lastWire name last h ↔ w.1.index = last :=
  ⟨fun e => e ▸ rfl, fun e => wire_ext e⟩

theorem index_mem_iff (w : Wire [upTo name last]) :
    w.1.index ∈ indices last ↔ w.1.index ≠ last := by
  obtain ⟨_, h0, h1⟩ := (inside_singleton _ _).1 w.2
  rw [mem_indices]
  change w.1.index < last + 1 at h1
  omega

theorem registerValue_upTo (h : 0 ≤ last) (memory : Bit → Bool) :
    registerValue (upTo name last) memory
      = ((List.range last.toNat).map fun i : Nat => if memory ⟨name, i⟩ then 2 ^ i else 0).sum
        + if memory ⟨name, last⟩ then 2 ^ last.toNat else 0 := by
  have hs : (last + 1).toNat = last.toNat + 1 := by omega
  have hl : (last.toNat : Int) = last := Int.toNat_of_nonneg h
  rw [registerValue, hs, List.range_succ, List.map_append, List.sum_append, List.map_singleton,
    List.sum_singleton, hl]

/-! ## the last wire in one state, each other wire in its own -/

variable {name last}

/-- the factors of a product: `a` for the last wire, `q i` for the wire at `i` -/
def apart (a : Bool → ℂ) (q : Int → Bool → ℂ) : Wire [upTo name last] → Bool → ℂ :=
  fun w => if w.1.index = last then a else q w.1.index

theorem apart_lastWire (h : 0 ≤ last) (a : Bool → ℂ) (q : Int → Bool → ℂ) :
    apart a q (lastWire name last h) = a := by
  show (if last = last then a else q last) = a
  rw [if_pos rfl]

theorem update_apart (h : 0 ≤ last) (a b : Bool → ℂ) (q : Int → Bool → ℂ) :
    Function.update (apart a q) (lastWire name last h) b = apart b q := by
  funext w
  by_cases hw : w = lastWire name last h
  · rw [hw, Function.update_self, apart_lastWire]
  · rw [Function.update_of_ne hw]
    have hi : w.1.index ≠ last := fun e => hw ((eq_lastWire_iff name last h w).2 e)
    rw [apart, apart, if_neg hi, if_neg hi]

theorem initial_apart :
    Branch.initial [upTo name last]
      = ⟨fun _ => false, tensor (apart (ket false) fun _ => ket false)⟩ := by
  have h : (apart (ket false) fun _ => ket false) = fun _ : Wire [upTo name last] => ket false := by
    funext w
    simp [apart]
  rw [Branch.initial, single_eq_tensor, h]

/-- a gate on the last wire -/
theorem onWire_lastWire (h : 0 ≤ last) (m : Matrix Bool Bool ℂ) (a : Bool → ℂ)
    (q : Int → Bool → ℂ) :
    onWire m (lastWire name last h) *ᵥ tensor (apart a q) = tensor (apart (m *ᵥ a) q) := by
  rw [onWire_mulVec_tensor, apart_lastWire, update_apart]

/-- the wires before the last one have the indices below `last` -/
theorem apart_congr (a : Bool → ℂ) {q r : Int → Bool → ℂ} (h : ∀ i ∈ indices last, q i = r i) :
    (apart a q : Wire [upTo name last] → Bool → ℂ) = apart a r := by
  funext w
  by_cases hw : w.1.index = last
  · rw [apart, apart, if_pos hw, if_pos hw]
  · rw [apart, apart, if_neg hw, if_neg hw, h _ ((index_mem_iff name last w).2 hw)]

/-- the factor of the last wire taken out -/
theorem tensor_apart (h : 0 ≤ last) (a : Bool → ℂ) (q : Int → Bool → ℂ)
    (x : Basis (Wire [upTo name last])) :
    tensor (apart a q) x = a (x (lastWire name last h))
      * ∏ w ∈ Finset.univ.erase (lastWire name last h), q w.1.index (x w) := by
  rw [tensor_eq_mul _ (lastWire name last h), apart_lastWire]
  congr 1
  apply Finset.prod_congr rfl
  intro w hw
  have hi : w.1.index ≠ last := fun e =>
    Finset.ne_of_mem_erase hw ((eq_lastWire_iff name last h w).2 e)
  rw [apart, if_neg hi]

/-- what is left when the last wire is seen to hold `v` -/
theorem observed_apart (h : 0 ≤ last) (v : Bool) (a : Bool → ℂ) (q : Int → Bool → ℂ) :
    observed (lastWire name last h) v (tensor (apart a q)) = a v • tensor (apart (ket v) q) := by
  funext x
  rw [observed, Pi.smul_apply, smul_eq_mul, tensor_apart h, tensor_apart h, ket]
  by_cases hx : x (lastWire name last h) = v
  · rw [if_pos hx, if_pos hx, one_mul, hx]
  · rw [if_neg hx, if_neg hx, zero_mul, mul_zero]

/-- a last wire that holds zero has both signs in equal parts -/
theorem apart_ket_false (h : 0 ≤ last) (q : Int → Bool → ℂ) :
    tensor (apart (ket false) q : Wire [upTo name last] → Bool → ℂ)
      = (1 / √2 : ℂ) • (tensor (apart (slanted false) q) + tensor (apart (slanted true) q)) := by
  funext x
  simp only [Pi.smul_apply, Pi.add_apply, smul_eq_mul, tensor_apart h, ← add_mul, ← mul_assoc]
  congr 1
  have h2 := sqrt_two_mul_sqrt_two
  have h0 := sqrt_two_ne_zero
  cases x (lastWire name last h)
  · simp only [ket, slanted, Bool.false_and, if_true, if_false, Bool.false_eq_true]
    field_simp
    rw [pow_two, h2]
    norm_num
  · simp [ket, slanted, neg_div]

variable (name last)

/-- a Hadamard gate on every wire but the last -/
def turns : List (Gate ℝ (Wire [upTo name last])) :=
  (wiresAt name last (indices last) fun _ h => h).map .h

theorem turns_lifted (guard : Option Guard) :
    (turns name last).map (lifted guard)
      = (indices last).map fun i => .gate (.h ⟨name, i⟩) guard := by
  rw [turns, List.map_map]
  exact map_wiresAt name last _ fun b => Instruction.gate (.h b) guard

theorem turns_operands : ∀ g ∈ turns name last, g.operands.Nodup := by
  intro g hg
  obtain ⟨w, _, rfl⟩ := List.mem_map.1 hg
  exact List.nodup_singleton w

theorem turns_apart (a : Bool → ℂ) (q : Int → Bool → ℂ) :
    gatesOperator (turns name last) *ᵥ tensor (apart a q)
      = tensor (apart a fun i => hadamard *ᵥ q i) := by
  rw [turns, gatesOperator_layer _ hadamard (fun _ => rfl) _
    (wiresAt_nodup name last _ (indices_nodup last))]
  congr 1
  funext w
  simp only [mem_wiresAt, index_mem_iff, apart]
  by_cases hw : w.1.index = last
  · simp [hw]
  · simp [hw]

variable {last}

/-- the wires at some indices added into the last one -/
def collects (hl : 0 ≤ last) (is : List Int) (h : ∀ i ∈ is, i ∈ indices last) :
    List (Gate ℝ (Wire [upTo name last])) :=
  (wiresAt name last is h).map fun w => .cx w (lastWire name last hl)

theorem collects_lifted (hl : 0 ≤ last) {is : List Int} (h : ∀ i ∈ is, i ∈ indices last)
    (guard : Option Guard) :
    (collects name hl is h).map (lifted guard)
      = is.map fun i => .gate (.cx ⟨name, i⟩ ⟨name, last⟩) guard := by
  rw [collects, List.map_map]
  exact map_wiresAt name last _ fun b => Instruction.gate (.cx b ⟨name, last⟩) guard

theorem lastWire_notMem (hl : 0 ≤ last) {is : List Int} (h : ∀ i ∈ is, i ∈ indices last) :
    lastWire name last hl ∉ wiresAt name last is h := by
  rw [mem_wiresAt]
  intro hm
  have := (mem_indices last _).1 (h _ hm)
  change 0 ≤ last ∧ last < last at this
  omega

theorem collects_operands (hl : 0 ≤ last) {is : List Int} (h : ∀ i ∈ is, i ∈ indices last) :
    ∀ g ∈ collects name hl is h, g.operands.Nodup := by
  intro g hg
  obtain ⟨w, hw, rfl⟩ := List.mem_map.1 hg
  have hne : w ≠ lastWire name last hl := fun e => lastWire_notMem name hl h (e ▸ hw)
  simpa [Gate.operands] using hne

/-- the chosen wires have their signs changed if the last one has the negative sign -/
theorem collects_apart (hl : 0 ≤ last) {is : List Int} (h : ∀ i ∈ is, i ∈ indices last)
    (hn : is.Nodup) (b : Bool) (s : Int → Bool) :
    gatesOperator (collects name hl is h) *ᵥ tensor (apart (slanted b) fun i => slanted (s i))
      = tensor (apart (slanted b) fun i => slanted (s i ^^ (decide (i ∈ is) && b))) := by
  rw [collects, gatesOperator_kickback _ _ (wiresAt_nodup name last h hn)
    (lastWire_notMem name hl h) _ b (apart_lastWire hl _ _)]
  congr 1
  funext w
  simp only [mem_wiresAt, apart]
  by_cases hw : w.1.index ∈ is
  · have hne := (index_mem_iff name last w).1 (h _ hw)
    funext a
    rw [if_pos hw, if_neg hne, if_neg hne]
    cases a <;> cases b <;> cases s w.1.index <;> simp [slanted, hw, neg_div]
  · simp [hw]

/-- the last wire turned from zero into the difference of its values -/
def readies (hl : 0 ≤ last) : List (Gate ℝ (Wire [upTo name last])) :=
  [.x (lastWire name last hl), .h (lastWire name last hl)]

theorem readies_operands (hl : 0 ≤ last) : ∀ g ∈ readies name hl, g.operands.Nodup := by
  intro g hg
  rcases List.mem_pair.1 hg with rfl | rfl
  · exact List.nodup_singleton _
  · exact List.nodup_singleton _

theorem readies_apart (hl : 0 ≤ last) (q : Int → Bool → ℂ) :
    gatesOperator (readies name hl) *ᵥ tensor (apart (ket false) q)
      = tensor (apart (slanted true) q) := by
  rw [readies, gatesOperator_mulVec_cons, gatesOperator_mulVec_cons, Gate.operator, Gate.operator,
    onWire_lastWire, onWire_lastWire, gatesOperator, one_mulVec, negation_mulVec_ket,
    hadamard_mulVec_ket, Bool.not_false]

/-! ## reading the wires before the last -/

variable (last)

/-- every wire but the last with the classical bit of its index -/
def reads (target : String) : List (Wire [upTo name last] × Bit) :=
  (wiresAt name last (indices last) fun _ h => h).map fun w => (w, ⟨target, w.1.index⟩)

theorem reads_measures (target : String) :
    ((reads name last target).map fun p => (p.1.1, p.2)).map
        (fun p => (.measure p.1 p.2 : Instruction ℝ))
      = (indices last).map fun i => .measure ⟨name, i⟩ ⟨target, i⟩ := by
  rw [reads, List.map_map, List.map_map]
  exact map_wiresAt name last _ fun b => Instruction.measure b ⟨target, b.index⟩

variable {name last}

/-- the classical bits with those of `target` set to `z` -/
def inscribed (target : String) (is : List Int) (z : Int → Bool) (memory : Bit → Bool) :
    Bit → Bool :=
  fun b => if b.register = target ∧ b.index ∈ is then z b.index else memory b

theorem recorded_eq_inscribed {quantum : List Register} (target : String)
    (ws : List (Wire quantum)) (x : Basis (Wire quantum)) (z : Int → Bool)
    (hz : ∀ w ∈ ws, x w = z w.1.index) (memory : Bit → Bool) :
    recorded x (ws.map fun w => (w, ⟨target, w.1.index⟩)) memory
      = inscribed target (ws.map fun w => w.1.index) z memory := by
  induction ws generalizing memory with
  | nil =>
    funext b
    simp [recorded, inscribed]
  | cons w ws ih =>
    rw [List.map_cons, recorded, ih fun w' h' => hz w' (List.mem_cons_of_mem w h'),
      hz w List.mem_cons_self]
    funext b
    by_cases hb : b = ⟨target, w.1.index⟩
    · simp [inscribed, hb]
    · have hm : b.register = target ∧ b.index ∈ (w :: ws).map (fun w => w.1.index)
          ↔ b.register = target ∧ b.index ∈ ws.map (fun w => w.1.index) := by
        rw [List.map_cons, List.mem_cons]
        refine and_congr_right fun hr => or_iff_right fun hi => hb ?_
        rw [← hr, ← hi]
      simp only [inscribed, hm, Function.update_of_ne hb]

/-- a product in which every wire but the last has a value is read as these values -/
theorem recorded_reads (target : String) {a : Bool → ℂ} {z : Int → Bool}
    {x : Basis (Wire [upTo name last])} (hx : tensor (apart a fun i => ket (z i)) x ≠ 0)
    (memory : Bit → Bool) :
    recorded x (reads name last target) memory = inscribed target (indices last) z memory := by
  rw [reads, recorded_eq_inscribed target _ x z]
  · rw [map_wiresAt name last _ Bit.index, List.map_id']
  · intro w hw
    have hne := (index_mem_iff name last w).1 ((mem_wiresAt name last _ w).1 hw)
    have hf := factor_ne_zero hx w
    rw [apart, if_neg hne] at hf
    exact eq_of_ket_ne_zero hf

theorem weight_apart (a : Bool → ℂ) (q : Int → Bool → ℂ) (ha : ∑ b, normSq (a b) = 1)
    (hq : ∀ i, ∑ b, normSq (q i b) = 1) :
    weight (tensor (apart a q : Wire [upTo name last] → Bool → ℂ)) = 1 := by
  rw [weight_tensor]
  apply Finset.prod_eq_one
  intro w _
  by_cases hw : w.1.index = last
  · rwa [apart, if_pos hw]
  · rw [apart, if_neg hw]
    exact hq _

/-- measuring every wire but the last into the bits of its own index -/
theorem chance_run_reads (P : (Bit → Bool) → Prop) [DecidablePred P] {classical : List Register}
    {target : String} (hin : ∀ i ∈ indices last, Bit.inside classical ⟨target, i⟩)
    (b : Branch [upTo name last]) :
    chance P (run [upTo name last] classical
        ((indices last).map fun i => .measure ⟨name, i⟩ ⟨target, i⟩) b)
      = readChance P (reads name last target) b.memory b.state := by
  have hps : ∀ p ∈ reads name last target, p.2.inside classical := by
    intro p hp
    obtain ⟨w, hw, rfl⟩ := List.mem_map.1 hp
    exact hin _ ((mem_wiresAt name last _ w).1 hw)
  rw [← reads_measures name last target, run_measures, chance_measureBits P _ hps]

/-- reading such a product gives its values for certain -/
theorem readChance_apart (P : (Bit → Bool) → Prop) [DecidablePred P] (target : String)
    {a : Bool → ℂ} (ha : ∑ b, normSq (a b) = 1) (z : Int → Bool) (memory : Bit → Bool) :
    readChance P (reads name last target) memory (tensor (apart a fun i => ket (z i)))
      = if P (inscribed target (indices last) z memory) then 1 else 0 := by
  rw [readChance_of_sure P fun x hx => recorded_reads target hx memory,
    weight_apart a _ ha fun i => sum_normSq_ket (z i)]

end

end

end CircuitBench.Quantum
