import CircuitBench.Proofs.Generate.Layers
import CircuitBench.Proofs.Quantum.Embedding
import CircuitBench.Proofs.Quantum.Program

/-!
# What the blocks of a model circuit denote

A decomposition denotes an operator on two places: each of its parts is a controlled negation or a
rotation by three angles, of which the name of the part may fix some (`Part.Denotes`).  The gates of
a block take the angles that are left from their positions, and the places of the pair from another
list.

`exists_realizes_part` says for one part that its gates on the places mean what the part means, and
that the block has the same gates on the qubits of the pair.  By induction the same holds of a
decomposition (`exists_realizes`), and the embedding of two wires into all of them gives the
operator of the block (`operator?_gatesOn`).
-/

namespace CircuitBench

open Matrix Quantum

noncomputable section

theorem Gate.withAngles_map {θ θ' ω ω' : Type} (r : θ → θ') (f : ω → ω') (g : Gate θ ω) :
    (g.map f).withAngles r = (g.withAngles r).map f := by
  cases g <;> rfl

/-! ## decompositions -/

section
attribute [local instance] atLeastTwo_two

/-- the part stands for the operator on the two places when its angles are read by `read`; a part
that is no negation is the rotation by its three angles, which must be those that its name allows -/
inductive Part.Denotes (read : Number → ℝ) : Part → Operator (Fin 2) → Prop
  | cx {a b : Fin 2} (angles : Option (List Number)) (h : a ≠ b) :
      Denotes read ⟨some "cx", some [(a.val : Int), (b.val : Int)], angles⟩ (controlledNot a b)
  | u1 (a : Fin 2) {theta phi : Number} (lam : Number) (ht : read theta = 0) (hp : read phi = 0) :
      Denotes read ⟨some "u1", some [(a.val : Int)], some [theta, phi, lam]⟩
        (onWire (rotation (read theta) (read phi) (read lam)) a)
  | u2 (a : Fin 2) {theta : Number} (phi lam : Number) (ht : read theta = Real.pi / 2) :
      Denotes read ⟨some "u2", some [(a.val : Int)], some [theta, phi, lam]⟩
        (onWire (rotation (read theta) (read phi) (read lam)) a)
  | u3 (a : Fin 2) (theta phi lam : Number) :
      Denotes read ⟨some "u3", some [(a.val : Int)], some [theta, phi, lam]⟩
        (onWire (rotation (read theta) (read phi) (read lam)) a)
  | id (a : Fin 2) {theta phi lam : Number} (ht : read theta = 0) (hp : read phi = 0)
      (hl : read lam = 0) :
      Denotes read ⟨some "id", some [(a.val : Int)], some [theta, phi, lam]⟩
        (onWire (rotation (read theta) (read phi) (read lam)) a)

end

theorem isPlace_val (a : Fin 2) : IsPlace a.val := by
  have h := a.isLt
  unfold IsPlace
  omega

theorem Part.Denotes.elementary {read : Number → ℝ} {p : Part} {m : Operator (Fin 2)}
    (h : p.Denotes read m) : p.Elementary := by
  have hplace (a : Fin 2) : ∀ i ∈ [(a.val : Int)], IsPlace i := by
    intro i hi
    rw [List.mem_singleton.1 hi]
    exact isPlace_val a
  cases h with
  | @cx a b angles hab =>
    refine .cx angles (isPlace_val a) (isPlace_val b) fun e => hab (Fin.ext ?_)
    exact Int.ofNat.inj e
  | u1 a lam ht hp => exact .u1 _ _ _ (hplace a)
  | u2 a phi lam ht => exact .u2 _ _ _ (hplace a)
  | u3 a theta phi lam => exact .u3 _ _ _ (hplace a)
  | id a ht hp hl => exact .id _ (hplace a)

/-- only decompositions into elementary gates denote something -/
theorem Part.elementary_of_denotes {read : Number → ℝ} {ps : List Part}
    {ms : List (Operator (Fin 2))} (h : List.Forall₂ (Part.Denotes read) ps ms) :
    ∀ p ∈ ps, p.Elementary := by
  induction h with
  | nil => simp
  | cons hp _ ih =>
    intro p hmem
    rcases List.mem_cons.1 hmem with rfl | hmem
    · exact hp.elementary
    · exact ih p hmem

theorem itemAt_mem {α : Type} (default : α) (xs : List α) (k : Nat) :
    itemAt default xs k ∈ default :: xs := by
  rw [itemAt, List.getD_eq_getElem?_getD]
  cases hx : xs[min k (xs.length - 1)]? with
  | none => exact List.mem_cons_self
  | some x => exact List.mem_cons_of_mem default (List.mem_of_getElem? hx)

namespace Generate.Volume

open CircuitBench.Volume

/-! ## the wires of a pair -/

def qubits (n : Nat) : List Register := [⟨"q", n⟩]

/-- the gate as an instruction of the circuit, with exact angles -/
def exactly (read : Number → ℝ) (g : Gate Number Int) : Instruction ℝ :=
  .gate ((g.map qubit).withAngles read) none

/-- the places zero and one as two different wires -/
def both {ω : Type} {u v : ω} (h : u ≠ v) : Fin 2 ↪ ω where
  toFun := ![u, v]
  inj' := by
    intro a b hab
    fin_cases a <;> fin_cases b
    · rfl
    · exact absurd hab h
    · exact absurd hab.symm h
    · rfl

section
variable {n : Nat} {u v : Wire (qubits n)} (h : u ≠ v)

theorem qubit_onto (a : Fin 2) : qubit (onto [u.1.index, v.1.index] a.val) = (both h a).1 := by
  fin_cases a
  · exact (wire_val u).symm
  · exact (wire_val v).symm

/-- a gate on places of the pair is the gate on the wires there -/
theorem exactly_onto (read : Number → ℝ) {g : Gate Number Int} {g' : Gate ℝ (Fin 2)}
    (hg : g.withAngles read = g'.map fun a => (a.val : Int)) :
    exactly read (g.map (onto [u.1.index, v.1.index])) = lifted none (g'.map (both h)) := by
  have hmap : ((g'.map fun a => (a.val : Int)).map (onto [u.1.index, v.1.index])).map qubit
      = (g'.map (both h)).map Subtype.val := by
    cases g' <;> simp only [Gate.map, qubit_onto h]
  rw [exactly, lifted, Gate.withAngles_map, Gate.withAngles_map, hg, hmap]

/-! ## the gates of a block -/

/-- gates on the two places that have the operator, and that on the wires of the pair are the
instructions of the block -/
structure Realizes (read : Number → ℝ) (ps : List Part) (m : Operator (Fin 2))
    (gs : List (Gate ℝ (Fin 2))) : Prop where
  operator : gatesOperator gs = m
  operands : ∀ g ∈ gs, g.operands.Nodup
  same : (gatesOn [u.1.index, v.1.index] ps).map (exactly read)
    = (gs.map (Gate.map (both h))).map (lifted none)

variable {read : Number → ℝ}

/-- one gate that has the operator -/
theorem realizes_gate {p : Part} {g : Gate Number Int} (g' : Gate ℝ (Fin 2)) {m : Operator (Fin 2)}
    (hp : p.gate? = some g) (hg : g.withAngles read = g'.map fun a => (a.val : Int))
    (hm : g'.operator = m) (hn : g'.operands.Nodup) : Realizes h read [p] m [g'] where
  operator := by rw [gatesOperator, gatesOperator, one_mul, hm]
  operands := by
    intro g hmem
    rwa [List.mem_singleton.1 hmem]
  same := by
    rw [gatesOn, List.filterMap_cons_some hp]
    exact congrArg (fun i => [i]) (exactly_onto h read hg)

/-- no gate, where the operator is the identity -/
theorem realizes_nothing {p : Part} {m : Operator (Fin 2)} (hp : p.gate? = none) (hm : m = 1) :
    Realizes h read [p] m [] where
  operator := hm.symm
  operands := by simp
  same := by
    rw [gatesOn, List.filterMap_cons_none hp]
    rfl

theorem Realizes.append {p : Part} {ps : List Part} {m m' : Operator (Fin 2)}
    {gs gs' : List (Gate ℝ (Fin 2))} (hp : Realizes h read [p] m gs)
    (hps : Realizes h read ps m' gs') : Realizes h read (p :: ps) (m' * m) (gs ++ gs') where
  operator := by rw [gatesOperator_append, hp.operator, hps.operator]
  operands := by
    intro g hg
    rcases List.mem_append.1 hg with hg | hg
    · exact hp.operands g hg
    · exact hps.operands g hg
  same := by
    have hcons : gatesOn [u.1.index, v.1.index] (p :: ps)
        = gatesOn [u.1.index, v.1.index] [p] ++ gatesOn [u.1.index, v.1.index] ps := by
      rw [gatesOn, gatesOn, gatesOn, ← List.map_append, ← List.filterMap_append]
      rfl
    rw [hcons, List.map_append, hp.same, hps.same, List.map_append, List.map_append]

/-- the angles that a name fixes are not written out -/
theorem exists_realizes_part {p : Part} {m : Operator (Fin 2)} (hp : p.Denotes read m) :
    ∃ gs, Realizes h read [p] m gs := by
  cases hp with
  | @cx a b angles hab =>
    refine ⟨_, realizes_gate h (.cx a b) rfl rfl rfl ?_⟩
    simpa [Gate.operands] using hab
  | u1 a lam ht hp =>
    rw [ht, hp]
    exact ⟨_, realizes_gate h (.u1 (read lam) a) rfl rfl rfl (List.nodup_singleton a)⟩
  | u2 a phi lam ht =>
    rw [ht]
    exact ⟨_, realizes_gate h (.u2 (read phi) (read lam) a) rfl rfl rfl
      (List.nodup_singleton a)⟩
  | u3 a theta phi lam =>
    exact ⟨_, realizes_gate h (.u3 (read theta) (read phi) (read lam) a) rfl rfl rfl
      (List.nodup_singleton a)⟩
  | id a ht hp hl =>
    refine ⟨_, realizes_nothing h rfl ?_⟩
    have hone : rotation 0 0 0 = 1 := by
      rw [rotation_zero]
      simp
    rw [ht, hp, hl, hone, onWire_one]

/-- the operators of the parts are multiplied, the first one on the right -/
theorem exists_realizes {ps : List Part} {ms : List (Operator (Fin 2))}
    (hps : List.Forall₂ (Part.Denotes read) ps ms) :
    ∃ gs, Realizes h read ps ms.reverse.prod gs := by
  induction hps with
  | nil => exact ⟨[], rfl, by simp, rfl⟩
  | @cons p m ps ms hp _ ih =>
    obtain ⟨gs, hgs⟩ := exists_realizes_part h hp
    obtain ⟨gs', hgs'⟩ := ih
    rw [List.reverse_cons, List.prod_append, List.prod_singleton]
    exact ⟨gs ++ gs', hgs.append h hgs'⟩

theorem operator?_gatesOn {ps : List Part} {ms : List (Operator (Fin 2))}
    (hps : List.Forall₂ (Part.Denotes read) ps ms) :
    operator? (qubits n) ((gatesOn [u.1.index, v.1.index] ps).map (exactly read))
      = some (embedded (both h) ms.reverse.prod) := by
  obtain ⟨gs, hgs⟩ := exists_realizes h hps
  rw [hgs.same, operator?_gates, gatesOperator_map, hgs.operator]
  intro g hg
  obtain ⟨g', hg', rfl⟩ := List.mem_map.1 hg
  rw [Gate.operands_map]
  exact (hgs.operands g' hg').map (both h).injective

end

/-! ## the generator -/

/-- the block is on two different qubits of the permutation, and its gates denote there what its
decomposition denotes -/
def Block.Means (n : Nat) (read : Number → ℝ) (perm : List Int) (k : Nat) (b : Block) : Prop :=
  ∃ (u v : Wire (qubits n)) (h : u ≠ v) (ms : List (Operator (Fin 2))),
    perm[2 * k]? = some u.1.index ∧ perm[2 * k + 1]? = some v.1.index ∧
    List.Forall₂ (Part.Denotes read) b.parts ms ∧
    operator? (qubits n) (b.gates.map (exactly read)) = some (embedded (both h) ms.reverse.prod)

/-- the qubit at a place of a permutation is a wire -/
theorem exists_wire {n : Nat} {l : Layer} (hl : l.Made n) {i : Nat} (hi : i < n) :
    ∃ u : Wire (qubits n), l.perm[i]? = some u.1.index ∧ l.perm.getD i 0 = u.1.index := by
  have hlen : i < l.perm.length := by rwa [hl.length_perm]
  have hin : (qubit (l.perm.getD i 0)).inside (qubits n) :=
    (inside_singleton _ _).2 ⟨rfl, hl.getD_inside hi⟩
  refine ⟨⟨_, hin⟩, ?_, rfl⟩
  rw [List.getElem?_eq_getElem hlen, ← List.getD_eq_getElem _ 0 hlen]
  rfl

theorem Layer.Made.means {n : Nat} {read : Number → ℝ} {l : Layer} (hl : l.Made n)
    (hparts : ∀ ps ∈ l.parts, ∃ ms, List.Forall₂ (Part.Denotes read) ps ms) {k : Nat} {b : Block}
    (hb : l.blocks[k]? = some b) : b.Means n read l.perm k := by
  obtain ⟨hk, hon⟩ := hl.on hb
  obtain ⟨u, hu, hu'⟩ := exists_wire hl (i := 2 * k) (by omega)
  obtain ⟨v, hv, hv'⟩ := exists_wire hl (i := 2 * k + 1) (by omega)
  have huv : u ≠ v := by
    rintro rfl
    exact hl.pair_ne hk (hu'.trans hv'.symm)
  obtain ⟨ms, hms⟩ := hparts b.parts (List.mem_map_of_mem (List.mem_of_getElem? hb))
  refine ⟨u, v, huv, ms, hu, hv, hms, ?_⟩
  rw [hon.gates, Layer.pair, pairOf, hu', hv']
  exact operator?_gatesOn huv hms

theorem exists_made {n depth count : Nat} {σ : Session} (hσ : Supplies n σ)
    (hd : Draws σ (count * depth * (n / 2))) :
    ∃ (circuits : List (List Layer)) (σ' : Session),
      (build (.value n) (.value depth) (.value count)).perform σ = (.ok count, σ') ∧
      circuits.length = count ∧ Built n depth σ σ' circuits ∧ ∀ l ∈ circuits.flatten, l.Made n := by
  have hopen := Laid.say n σ (registerCalls n)
  have hdraws : Draws (σ.say ((registerCalls n).map .call)) (count * (depth * (n / 2))) := by
    rwa [← hopen.draws_iff_of_nil, ← Nat.mul_assoc]
  obtain ⟨cs, υ, hcs, hlaid, hlen, rfl, hgood⟩ :=
    (adds_repeatJob count (adds_addCircuit n depth) _ (hσ.after hopen)).1 hdraws
  refine ⟨cs, υ, ?_, rfl, built_of_laid (hopen.trans hlaid) hlen hgood, ?_⟩
  · rw [build, Job.perform_bind_ok (Job.perform_callAll _ _),
      Job.perform_bind_ok (Job.perform_given _ _ _)]
    exact Job.perform_bind_ok hcs
  · intro l hl
    obtain ⟨ls, hls, hmem⟩ := List.mem_flatten.1 hl
    exact (hgood ls hls).2 l hmem

/-- **Blocks keep the meaning of decompositions.**  Let every decomposition denote an operator on
two places.  On any two different qubits a decomposition gives gates, without a fault, whose
operator is that operator on the two qubits and the identity on all others.  These are the gates
that the generator adds to its circuits, for every pair of every permutation. -/
theorem blocks_denote_decompositions (n : Nat) (read : Number → ℝ) :
    (∀ (u v : Wire (qubits n)) (h : u ≠ v) (ps : List Part) (ms : List (Operator (Fin 2))),
      List.Forall₂ (Part.Denotes read) ps ms →
      ∃ gates, block [u.1.index, v.1.index] ps = (gates, none) ∧
        operator? (qubits n) (gates.map (exactly read))
          = some (embedded (both h) ms.reverse.prod)) ∧
    ∀ (depth count : Nat) (σ : Session), (∀ perm ∈ σ.permutations, perm.Perm (indices n)) →
      (∀ ps ∈ σ.decompositions, ∃ ms, List.Forall₂ (Part.Denotes read) ps ms) →
      Draws σ (count * depth * (n / 2)) →
      ∃ (circuits : List (List Layer)) (σ' : Session),
        (build (.value n) (.value depth) (.value count)).perform σ = (.ok count, σ') ∧
        circuits.length = count ∧ Built n depth σ σ' circuits ∧
        ∀ l ∈ circuits.flatten, ∀ (k : Nat) (b : Block), l.blocks[k]? = some b →
          b.Means n read l.perm k := by
  constructor
  · intro u v h ps ms hps
    exact ⟨_, block_elementary (Part.elementary_of_denotes hps) _ _, operator?_gatesOn h hps⟩
  · intro depth count σ hperms hparts hd
    have hσ : Supplies n σ := by
      refine ⟨hperms, fun ps hps => ?_⟩
      obtain ⟨ms, hms⟩ := hparts ps hps
      exact Part.elementary_of_denotes hms
    obtain ⟨circuits, σ', hbuild, hcount, hbuilt, hmade⟩ := exists_made hσ hd
    refine ⟨circuits, σ', hbuild, hcount, hbuilt, fun l hl k b hb => ?_⟩
    refine (hmade l hl).means (fun ps hps => ?_) hb
    -- the decompositions of the layers are those that were supplied
    have hmem := List.mem_flatMap.2 ⟨l, hl, hps⟩
    rw [hbuilt.parts] at hmem
    obtain ⟨j, _, rfl⟩ := List.mem_map.1 hmem
    rcases List.mem_cons.1 (itemAt_mem [] σ.decompositions j) with h | h
    · rw [h]
      exact ⟨[], .nil⟩
    · exact hparts _ h

/-! ### a decomposition with all kinds of parts -/

def mixedParts : List Part :=
  [⟨some "u3", some [1], some [.whole 1, .whole 2, .whole 3]⟩,
    ⟨some "cx", some [1, 0], none⟩,
    ⟨some "id", some [0], some [.whole 0, .whole 0, .whole 0]⟩,
    ⟨some "u2", some [0], some [.real piReal, .whole 2, .whole 3]⟩,
    ⟨some "u1", some [1], some [.whole 0, .whole 0, .whole 3]⟩]

section
attribute [local instance] atLeastTwo_two

/-- whole numbers as they are, machine numbers as a quarter turn -/
def mixedAngles : Number → ℝ
  | .whole k => k
  | .real _ => Real.pi / 2

end

theorem denotes_mixedParts : ∃ ms, List.Forall₂ (Part.Denotes mixedAngles) mixedParts ms := by
  have hzero : mixedAngles (.whole 0) = 0 := Int.cast_zero
  exact ⟨_, .cons (.u3 1 _ _ _) (.cons (.cx (a := 1) (b := 0) _ (by decide))
    (.cons (.id 0 hzero hzero hzero) (.cons (.u2 0 _ _ rfl) (.cons (.u1 1 _ hzero hzero) .nil))))⟩

def mixedThree : Session := { threeQubits with decompositions := [mixedParts] }

/-- on the last qubit and the first one, and in circuits of two layers -/
theorem three_qubit_blocks_denote :
    (∃ ms, List.Forall₂ (Part.Denotes mixedAngles) mixedParts ms ∧
      ∃ (u v : Wire (qubits 3)) (h : u ≠ v) (gates : List (Gate Number Int)),
        block [2, 0] mixedParts = (gates, none) ∧
        operator? (qubits 3) (gates.map (exactly mixedAngles))
          = some (embedded (both h) ms.reverse.prod)) ∧
    ∃ (circuits : List (List Layer)) (σ' : Session),
      (build (.value 3) (.value 2) (.value 2)).perform mixedThree = (.ok 2, σ') ∧
      circuits.length = 2 ∧ Built 3 2 mixedThree σ' circuits ∧
      ∀ l ∈ circuits.flatten, ∀ (k : Nat) (b : Block), l.blocks[k]? = some b →
        b.Means 3 mixedAngles l.perm k := by
  obtain ⟨hpair, hbuild⟩ := blocks_denote_decompositions 3 mixedAngles
  constructor
  · obtain ⟨ms, hms⟩ := denotes_mixedParts
    let u : Wire (qubits 3) := ⟨qubit 2, by decide⟩
    let v : Wire (qubits 3) := ⟨qubit 0, by decide⟩
    have huv : u ≠ v := by decide
    obtain ⟨gates, hgates, hoperator⟩ := hpair u v huv mixedParts ms hms
    exact ⟨ms, hms, u, v, huv, gates, hgates, hoperator⟩
  · have hdraws : Draws mixedThree 4 := by
      intro k hk
      have hsample : sample mixedThree k = sample threeQubits k := by
        rw [sample, sample, mixedThree]
      rw [hsample]
      exact draws_threeQubits k hk
    refine hbuild 2 2 mixedThree supplies_threeQubits.perms (fun ps hps => ?_) hdraws
    rw [List.mem_singleton.1 hps]
    exact denotes_mixedParts

end Generate.Volume

end

end CircuitBench
