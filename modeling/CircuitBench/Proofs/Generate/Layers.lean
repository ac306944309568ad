import CircuitBench.Proofs.Unitary.Drawing
import Mathlib.Data.List.Forall2

/-!
# The layers of model circuits

A block is the gates of one two-qubit unitary, a layer is a pairing of the qubits with a block for
each pair, and a model circuit is a list of layers.  The gates of a decomposition are on the places
zero and one; a block has them on the two qubits of its pair.

`Laid` says what was done from one session to another: which permutations and decompositions were
taken from their supplies, and which calls were made.  `Adds` is what it means for a job to add a
block, a layer or a circuit, and `adds_forM` carries it through a loop.  It is used for the three
loops of the generator, over the pairs of a layer, the layers of a circuit and the circuits.
-/

namespace CircuitBench

theorem Gate.map_map_eq_self {θ ω ω' : Type} {f : ω → ω'} {back : ω' → ω} {g : Gate θ ω}
    (h : ∀ i ∈ g.operands, back (f i) = i) : (g.map f).map back = g := by
  cases g <;> simp_all [Gate.map, Gate.operands]

def IsPlace (i : Int) : Prop := i = 0 ∨ i = 1

instance : DecidablePred IsPlace := fun i => inferInstanceAs (Decidable (i = 0 ∨ i = 1))

/-- the gates that a decomposition is made of -/
inductive Part.Elementary : Part → Prop
  | cx {a b : Int} (angles : Option (List Number)) (ha : IsPlace a) (hb : IsPlace b) (hab : a ≠ b) :
      Elementary ⟨some "cx", some [a, b], angles⟩
  | u1 {a : Int} {as : List Int} (theta phi lam : Number) (h : ∀ i ∈ a :: as, IsPlace i) :
      Elementary ⟨some "u1", some (a :: as), some [theta, phi, lam]⟩
  | u2 {a : Int} {as : List Int} (theta phi lam : Number) (h : ∀ i ∈ a :: as, IsPlace i) :
      Elementary ⟨some "u2", some (a :: as), some [theta, phi, lam]⟩
  | u3 {a : Int} {as : List Int} (theta phi lam : Number) (h : ∀ i ∈ a :: as, IsPlace i) :
      Elementary ⟨some "u3", some (a :: as), some [theta, phi, lam]⟩
  | id {a : Int} {as : List Int} (angles : Option (List Number)) (h : ∀ i ∈ a :: as, IsPlace i) :
      Elementary ⟨some "id", some (a :: as), angles⟩

/-- the gate that a part stands for; an identity is no gate -/
def Part.gate? (p : Part) : Option (Gate Number Int) :=
  match p.name, p.operands, p.angles with
  | some "cx", some (a :: b :: _), _ => some (.cx a b)
  | some "u1", some (a :: _), some [_, _, lam] => some (.u1 lam a)
  | some "u2", some (a :: _), some [_, phi, lam] => some (.u2 phi lam a)
  | some "u3", some (a :: _), some [theta, phi, lam] => some (.u3 theta phi lam a)
  | _, _, _ => none

namespace Generate.Volume

open CircuitBench.Volume

def onto (pair : List Int) (i : Int) : Int := pair.getD i.toNat 0

theorem onPair_elementary {p : Part} (h : p.Elementary) (a b : Int) :
    onPair [a, b] p = .ok (p.gate?.map (Gate.map (onto [a, b]))) := by
  cases h with
  | cx angles ha hb hab => rcases ha with rfl | rfl <;> rcases hb with rfl | rfl <;> rfl
  | u1 theta phi lam h => rcases h _ List.mem_cons_self with rfl | rfl <;> rfl
  | u2 theta phi lam h => rcases h _ List.mem_cons_self with rfl | rfl <;> rfl
  | u3 theta phi lam h => rcases h _ List.mem_cons_self with rfl | rfl <;> rfl
  | id angles h => rcases h _ List.mem_cons_self with rfl | rfl <;> rfl

theorem operands_elementary {p : Part} (h : p.Elementary) {g : Gate Number Int}
    (hg : p.gate? = some g) : (∀ i ∈ g.operands, IsPlace i) ∧ g.operands.Nodup := by
  cases h with
  | cx angles ha hb hab =>
    obtain rfl := Option.some.inj hg
    simp [Gate.operands, ha, hb, hab]
  | u1 theta phi lam h =>
    obtain rfl := Option.some.inj hg
    simp [Gate.operands, h _ List.mem_cons_self]
  | u2 theta phi lam h =>
    obtain rfl := Option.some.inj hg
    simp [Gate.operands, h _ List.mem_cons_self]
  | u3 theta phi lam h =>
    obtain rfl := Option.some.inj hg
    simp [Gate.operands, h _ List.mem_cons_self]
  | id angles h => cases hg

/-! ## blocks and layers -/

/-- the gates of one two-qubit unitary and the decomposition that they come from -/
structure Block where
  parts : List Part
  gates : List (Gate Number Int)

/-- the calls that add a block: the unitary is decomposed, then its gates follow -/
def Block.calls (b : Block) : List Call :=
  .decompose :: b.gates.map fun g => .gate (g.map fun i => (qubit i).text)

/-- the gates of a decomposition on the qubits of a pair -/
def gatesOn (pair : List Int) (ps : List Part) : List (Gate Number Int) :=
  (ps.filterMap Part.gate?).map (Gate.map (onto pair))

structure Block.On (pair : List Int) (b : Block) : Prop where
  elementary : ∀ p ∈ b.parts, p.Elementary
  gates : b.gates = gatesOn pair b.parts

theorem block_elementary {ps : List Part} (h : ∀ p ∈ ps, p.Elementary) (a b : Int) :
    block [a, b] ps = (gatesOn [a, b] ps, none) := by
  induction ps with
  | nil => rfl
  | cons p ps ih =>
    rw [block, onPair_elementary (h p List.mem_cons_self),
      ih fun p' hp => h p' (List.mem_cons_of_mem p hp)]
    cases hp : p.gate? with
    | none => simp [gatesOn, hp]
    | some g => simp [gatesOn, hp]

def pairOf (perm : List Int) (k : Nat) : List Int := [perm.getD (2 * k) 0, perm.getD (2 * k + 1) 0]

/-- how the qubits are paired, and a block for each pair -/
structure Layer where
  perm : List Int
  blocks : List Block

namespace Layer

def parts (l : Layer) : List (List Part) := l.blocks.map Block.parts

def calls (l : Layer) : List Call := l.blocks.flatMap Block.calls

def pair (l : Layer) (k : Nat) : List Int := pairOf l.perm k

def place (l : Layer) (k : Nat) (q : Int) : Int := (l.pair k).idxOf q

/-- the layer pairs the qubits below `n` and has for each pair a block on it -/
structure Made (n : Nat) (l : Layer) : Prop where
  perm : l.perm.Perm (indices n)
  blocks : List.Forall₂ (fun k b => Block.On (l.pair k) b) (List.range (n / 2)) l.blocks

/-- a layer as it should be: blocks on disjoint pairs, which leave out the last qubit of the
permutation if the number of qubits is odd; and the blocks are the decompositions with the places
of their pairs renamed -/
structure Sound (n : Nat) (l : Layer) : Prop where
  perm : l.perm.Perm (indices n)
  count : l.blocks.length = n / 2
  touches : ∀ (k : Nat) (b : Block), l.blocks[k]? = some b →
    ∀ g ∈ b.gates, ∀ q ∈ g.operands, q ∈ l.pair k
  nodup : ∀ k < n / 2, (l.pair k).Nodup
  disjoint : ∀ j < n / 2, ∀ k < n / 2, j ≠ k → (l.pair j).Disjoint (l.pair k)
  covers : ∀ q : Int, 0 ≤ q → q < n →
    ((∃ k < n / 2, q ∈ l.pair k) ↔ ¬(n % 2 = 1 ∧ q = l.perm.getD (n - 1) 0))
  inside : ∀ b ∈ l.blocks, ∀ g ∈ b.gates, ∀ q ∈ g.operands, 0 ≤ q ∧ q < n
  distinct : ∀ b ∈ l.blocks, ∀ g ∈ b.gates, g.operands.Nodup
  renamed : ∀ (k : Nat) (b : Block), l.blocks[k]? = some b →
    b.gates.map (Gate.map (l.place k)) = b.parts.filterMap Part.gate?

end Layer

section
variable {a b : Int}

theorem onto_mem {i : Int} (hi : IsPlace i) : onto [a, b] i ∈ [a, b] := by
  rcases hi with rfl | rfl <;> simp [onto]

theorem idxOf_onto {i : Int} (hab : a ≠ b) (hi : IsPlace i) :
    ([a, b].idxOf (onto [a, b] i) : Int) = i := by
  rcases hi with rfl | rfl
  · simp [onto]
  · simp [onto, hab]

theorem onto_inj {i j : Int} (hab : a ≠ b) (hi : IsPlace i) (hj : IsPlace j)
    (h : onto [a, b] i = onto [a, b] j) : i = j := by
  rw [← idxOf_onto hab hi, h, idxOf_onto hab hj]

namespace Block.On

variable {x : Block}

theorem exists_part (h : x.On [a, b]) {g : Gate Number Int} (hg : g ∈ x.gates) :
    ∃ g' : Gate Number Int, g = g'.map (onto [a, b]) ∧ (∀ i ∈ g'.operands, IsPlace i) ∧
      g'.operands.Nodup := by
  rw [h.gates, gatesOn] at hg
  obtain ⟨g', hg', rfl⟩ := List.mem_map.1 hg
  obtain ⟨p, hp, hpg⟩ := List.mem_filterMap.1 hg'
  exact ⟨g', rfl, operands_elementary (h.elementary p hp) hpg⟩

theorem mem_pair (h : x.On [a, b]) {g : Gate Number Int} (hg : g ∈ x.gates) {q : Int}
    (hq : q ∈ g.operands) : q ∈ [a, b] := by
  obtain ⟨g', rfl, hplace, _⟩ := h.exists_part hg
  rw [Gate.operands_map] at hq
  obtain ⟨i, hi, rfl⟩ := List.mem_map.1 hq
  exact onto_mem (hplace i hi)

theorem operands_nodup (h : x.On [a, b]) (hab : a ≠ b) {g : Gate Number Int} (hg : g ∈ x.gates) :
    g.operands.Nodup := by
  obtain ⟨g', rfl, hplace, hnodup⟩ := h.exists_part hg
  rw [Gate.operands_map]
  exact hnodup.map_on fun i hi j hj hij => onto_inj hab (hplace i hi) (hplace j hj) hij

theorem renamed (h : x.On [a, b]) (hab : a ≠ b) :
    x.gates.map (Gate.map fun q => ([a, b].idxOf q : Int)) = x.parts.filterMap Part.gate? := by
  rw [h.gates, gatesOn, List.map_map]
  refine (List.map_congr_left fun g hg => ?_).trans (List.map_id _)
  obtain ⟨p, hp, hpg⟩ := List.mem_filterMap.1 hg
  have hplace := (operands_elementary (h.elementary p hp) hpg).1
  exact Gate.map_map_eq_self fun i hi => idxOf_onto hab (hplace i hi)

end Block.On

end

namespace Layer.Made

variable {n : Nat} {l : Layer}

theorem length_perm (h : l.Made n) : l.perm.length = n := by
  rw [h.perm.length_eq, indices_length, Int.toNat_natCast]

/-- different places of the permutation hold different qubits -/
theorem getD_inj (h : l.Made n) {i j : Nat} (hi : i < n) (hj : j < n) :
    l.perm.getD i 0 = l.perm.getD j 0 ↔ i = j := by
  have hlen := h.length_perm
  have hnodup : l.perm.Nodup := h.perm.nodup_iff.2 (indices_nodup n)
  rw [List.getD_eq_getElem _ _ (by omega), List.getD_eq_getElem _ _ (by omega),
    hnodup.getElem_inj_iff]

theorem mem_perm (h : l.Made n) (q : Int) : q ∈ l.perm ↔ 0 ≤ q ∧ q < n := by
  rw [h.perm.mem_iff, mem_indices]

theorem exists_getD (h : l.Made n) {q : Int} (h0 : 0 ≤ q) (hn : q < n) :
    ∃ i < n, q = l.perm.getD i 0 := by
  obtain ⟨i, hi, rfl⟩ := List.mem_iff_getElem.1 ((h.mem_perm q).2 ⟨h0, hn⟩)
  exact ⟨i, h.length_perm ▸ hi, (List.getD_eq_getElem _ _ hi).symm⟩

theorem getD_inside (h : l.Made n) {i : Nat} (hi : i < n) :
    0 ≤ l.perm.getD i 0 ∧ l.perm.getD i 0 < n := by
  have hlen : i < l.perm.length := by rwa [h.length_perm]
  rw [← h.mem_perm, List.getD_eq_getElem _ _ hlen]
  exact List.getElem_mem hlen

theorem length_blocks (h : l.Made n) : l.blocks.length = n / 2 := by
  rw [← h.blocks.length_eq, List.length_range]

theorem on (h : l.Made n) {k : Nat} {b : Block} (hb : l.blocks[k]? = some b) :
    k < n / 2 ∧ b.On (l.pair k) := by
  obtain ⟨hk, rfl⟩ := List.getElem?_eq_some_iff.1 hb
  have hk' : k < n / 2 := by rwa [← h.length_blocks]
  have hon := h.blocks.get (i := k) (by rwa [List.length_range]) hk
  simp only [List.get_eq_getElem, List.getElem_range] at hon
  exact ⟨hk', hon⟩

theorem pair_ne (h : l.Made n) {k : Nat} (hk : k < n / 2) :
    l.perm.getD (2 * k) 0 ≠ l.perm.getD (2 * k + 1) 0 := by
  rw [Ne, h.getD_inj (by omega) (by omega)]
  omega

theorem disjoint (h : l.Made n) {j k : Nat} (hj : j < n / 2) (hk : k < n / 2) (hjk : j ≠ k) :
    (l.pair j).Disjoint (l.pair k) := by
  intro q hqj hqk
  simp only [Layer.pair, pairOf, List.mem_cons, List.not_mem_nil, or_false] at hqj hqk
  rcases hqj with rfl | rfl <;> rcases hqk with hq | hq <;>
    rw [h.getD_inj (by omega) (by omega)] at hq <;> omega

theorem covers (h : l.Made n) {q : Int} (h0 : 0 ≤ q) (hn : q < n) :
    (∃ k < n / 2, q ∈ l.pair k) ↔ ¬(n % 2 = 1 ∧ q = l.perm.getD (n - 1) 0) := by
  obtain ⟨i, hi, rfl⟩ := h.exists_getD h0 hn
  rw [h.getD_inj hi (by omega)]
  constructor
  · rintro ⟨k, hk, hq⟩
    simp only [Layer.pair, pairOf, List.mem_cons, List.not_mem_nil, or_false] at hq
    rw [h.getD_inj hi (by omega), h.getD_inj hi (by omega)] at hq
    omega
  · intro hodd
    refine ⟨i / 2, by omega, ?_⟩
    simp only [Layer.pair, pairOf, List.mem_cons, List.not_mem_nil, or_false]
    rw [h.getD_inj hi (by omega), h.getD_inj hi (by omega)]
    omega

theorem sound (h : l.Made n) : l.Sound n where
  perm := h.perm
  count := h.length_blocks
  touches := fun k b hb g hg q hq => (h.on hb).2.mem_pair hg hq
  nodup := fun k hk => by simpa [Layer.pair, pairOf] using h.pair_ne hk
  disjoint := fun j hj k hk => h.disjoint hj hk
  covers := fun q => h.covers
  inside := by
    intro b hb g hg q hq
    obtain ⟨k, hk⟩ := List.mem_iff_getElem?.1 hb
    obtain ⟨hlt, hon⟩ := h.on hk
    have hpair := hon.mem_pair hg hq
    simp only [List.mem_cons, List.not_mem_nil, or_false] at hpair
    rcases hpair with rfl | rfl
    · exact h.getD_inside (by omega)
    · exact h.getD_inside (by omega)
  distinct := by
    intro b hb g hg
    obtain ⟨k, hk⟩ := List.mem_iff_getElem?.1 hb
    obtain ⟨hlt, hon⟩ := h.on hk
    exact hon.operands_nodup (h.pair_ne hlt) hg
  renamed := by
    intro k b hb
    obtain ⟨hlt, hon⟩ := h.on hb
    exact hon.renamed (h.pair_ne hlt)

end Layer.Made

/-! ## what is used of a session -/

/-- the normal numbers of the `k`-th two-qubit matrix that will be drawn -/
def sample (σ : Session) (k : Nat) : List Float :=
  (List.range 32).map fun i =>
    σ.normals.getD ((σ.normalsUsed + 32 * k + i) % σ.normals.length) 0

/-- the next `count` matrices that are drawn have factors -/
def Draws (σ : Session) (count : Nat) : Prop := ∀ k < count, Factors 4 (sample σ k)

/-- the session supplies permutations of `n` qubits, and decompositions into elementary gates -/
structure Supplies (n : Nat) (σ : Session) : Prop where
  perms : ∀ perm ∈ σ.permutations, perm.Perm (indices n)
  parts : ∀ ps ∈ σ.decompositions, ∀ p ∈ ps, p.Elementary

/-- from one session to the other the permutations and the decompositions were taken, and the calls
were made -/
structure Laid (n : Nat) (σ σ' : Session) (perms : List (List Int)) (parts : List (List Part))
    (calls : List Call) : Prop where
  events : σ'.events = σ.events ++ calls.map .call
  permutations : Taken (indices n) σ.permutations perms σ'.permutations
  decompositions : Taken [] σ.decompositions parts σ'.decompositions
  samples : ∀ k, sample σ' k = sample σ (parts.length + k)

section
variable {n : Nat} {σ τ υ : Session} {perms perms' : List (List Int)}
  {parts parts' : List (List Part)} {calls calls' : List Call}

theorem Laid.trans (h : Laid n σ τ perms parts calls) (h' : Laid n τ υ perms' parts' calls') :
    Laid n σ υ (perms ++ perms') (parts ++ parts') (calls ++ calls') where
  events := by rw [h'.events, h.events, List.map_append, List.append_assoc]
  permutations := h.permutations.trans h'.permutations
  decompositions := h.decompositions.trans h'.decompositions
  samples := by
    intro k
    rw [h'.samples, h.samples, List.length_append, Nat.add_assoc]

/-- calls alone use nothing -/
theorem Laid.say (n : Nat) (σ : Session) (cs : List Call) :
    Laid n σ (σ.say (cs.map .call)) [] [] cs where
  events := σ.events_say _
  permutations := Taken.refl _ _
  decompositions := Taken.refl _ _
  samples := fun k => by rw [List.length_nil, Nat.zero_add]; rfl

theorem Laid.refl (n : Nat) (σ : Session) : Laid n σ σ [] [] [] := Laid.say n σ []

theorem Supplies.after (h : Supplies n σ) (hlaid : Laid n σ τ perms parts calls) :
    Supplies n τ where
  perms := fun perm hp => h.perms perm (hlaid.permutations.sub perm hp)
  parts := fun ps hps => h.parts ps (hlaid.decompositions.sub ps hps)

theorem Laid.draws_iff (h : Laid n σ τ perms parts calls) (m : Nat) :
    Draws σ (parts.length + m) ↔ Draws σ parts.length ∧ Draws τ m := by
  constructor
  · intro hd
    refine ⟨fun k hk => hd k (by omega), fun k hk => ?_⟩
    rw [h.samples]
    exact hd _ (by omega)
  · rintro ⟨hd, hd'⟩ k hk
    by_cases hlt : k < parts.length
    · exact hd k hlt
    · have hrest := hd' (k - parts.length) (by omega)
      rwa [h.samples, Nat.add_sub_cancel' (by omega)] at hrest

/-- what takes no decomposition draws nothing -/
theorem Laid.draws_iff_of_nil (h : Laid n σ τ perms [] calls) (m : Nat) :
    Draws σ m ↔ Draws τ m := by
  have hiff := h.draws_iff m
  rw [List.length_nil, Nat.zero_add] at hiff
  exact hiff.trans (and_iff_right fun k hk => absurd hk (Nat.not_lt_zero k))

end

/-! ## jobs that add a thing to a circuit -/

/-- what can be read off a thing: the permutations and the decompositions that it takes, and the
calls that make it -/
structure View (X : Type) where
  perms : X → List (List Int)
  parts : X → List (List Part)
  calls : X → List Call

/-- things one after the other -/
def View.list {X : Type} (v : View X) : View (List X) :=
  ⟨List.flatMap v.perms, List.flatMap v.parts, List.flatMap v.calls⟩

/-- the job adds a thing that takes `d` decompositions, or stops at a matrix without a factor -/
def Adds {X : Type} (n d : Nat) (v : View X) (Good : X → Prop) (job : Job Unit) : Prop :=
  ∀ σ, Supplies n σ →
    (Draws σ d → ∃ x σ', job.perform σ = (.ok (), σ') ∧
      Laid n σ σ' (v.perms x) (v.parts x) (v.calls x) ∧ (v.parts x).length = d ∧ Good x) ∧
    (¬Draws σ d → ∃ σ', job.perform σ = (.error .notFinite, σ'))

section
variable {X : Type} {n d : Nat} {v : View X}

/-- a loop adds a list of things, one for each round -/
theorem adds_forM {job : Nat → Job Unit} {Good : Nat → X → Prop} {ks : List Nat}
    (h : ∀ k ∈ ks, Adds n d v (Good k) (job k)) :
    Adds n (ks.length * d) v.list (List.Forall₂ Good ks) (ks.forM job) := by
  induction ks with
  | nil =>
    intro σ _
    refine ⟨fun _ => ⟨[], σ, rfl, Laid.refl n σ, by simp [View.list], .nil⟩, ?_⟩
    intro hnot
    exact absurd (fun k hk => absurd hk (by simp)) hnot
  | cons k ks ih =>
    intro σ hσ
    have ih := ih fun j hj => h j (List.mem_cons_of_mem k hj)
    have hcount : (k :: ks).length * d = d + ks.length * d := by
      rw [List.length_cons, Nat.succ_mul, Nat.add_comm]
    rw [hcount]
    obtain ⟨hfirst, hstop⟩ := h k List.mem_cons_self σ hσ
    by_cases hd : Draws σ d
    · obtain ⟨x, τ, hx, hlaid, hlen, hgood⟩ := hfirst hd
      -- the later rounds draw what the first one has left
      have hiff := hlaid.draws_iff (ks.length * d)
      rw [hlen, and_iff_right hd] at hiff
      obtain ⟨hrest, hfail⟩ := ih τ (hσ.after hlaid)
      constructor
      · intro hall
        obtain ⟨xs, υ, hxs, hlaid', hlens, hgoods⟩ := hrest (hiff.1 hall)
        refine ⟨x :: xs, υ, (Job.perform_bind_ok hx).trans hxs, hlaid.trans hlaid', ?_,
          .cons hgood hgoods⟩
        show (v.parts x ++ v.list.parts xs).length = _
        rw [List.length_append, hlen, hlens]
      · intro hnot
        obtain ⟨υ, hυ⟩ := hfail (mt hiff.2 hnot)
        exact ⟨υ, (Job.perform_bind_ok hx).trans hυ⟩
    · constructor
      · intro hall
        exact absurd (fun i hi => hall i (by omega)) hd
      · intro _
        obtain ⟨τ, hτ⟩ := hstop hd
        exact ⟨τ, Job.perform_bind_error hτ⟩

theorem adds_repeatJob {job : Job Unit} {Good : X → Prop} (m : Nat) (h : Adds n d v Good job) :
    Adds n (m * d) v.list (fun xs => xs.length = m ∧ ∀ x ∈ xs, Good x) (repeatJob m job) := by
  have hloop : Adds n ((List.range m).length * d) v.list
      (List.Forall₂ (fun _ x => Good x) (List.range m)) (repeatJob m job) := adds_forM fun _ _ => h
  rw [List.length_range] at hloop
  intro σ hσ
  refine ⟨fun hd => ?_, (hloop σ hσ).2⟩
  obtain ⟨xs, σ', hxs, hlaid, hlen, hall⟩ := (hloop σ hσ).1 hd
  refine ⟨xs, σ', hxs, hlaid, hlen, ?_, ?_⟩
  · rw [← hall.length_eq, List.length_range]
  · rw [List.forall_mem_iff_get]
    intro i
    exact hall.get (i := i) (by rw [hall.length_eq]; exact i.2) i.2

end

/-! ## the loops of the generator -/

theorem perform_drawUnitary_four (σ : Session) :
    (drawUnitary 4).perform σ =
      (if Factors 4 (sample σ 0) then .ok (Unitary.special (matrixOf 4 (sample σ 0)))
        else .error .notFinite, σ.skipNormals 32) :=
  perform_drawUnitary (by decide) σ

theorem qubitAt_of_lt {perm : List Int} {k : Nat} (h : k < perm.length) :
    qubitAt perm k = .ok (perm.getD k 0) := by
  rw [qubitAt, List.getElem?_eq_getElem h, List.getD_eq_getElem _ _ h]

/-- the session after the unitary of a block was drawn and decomposed -/
def useBlock (σ : Session) : Session :=
  { σ with
    normalsUsed := σ.normalsUsed + 32
    decompositions := (nextOf [] σ.decompositions).2 }

theorem laid_useBlock (n : Nat) (σ : Session) (cs : List Call) :
    Laid n σ ((useBlock σ).say (cs.map .call)) [] [(nextOf [] σ.decompositions).1] cs where
  events := (useBlock σ).events_say _
  permutations := Taken.refl _ _
  decompositions := Taken.next _ _
  samples := by
    intro k
    have hused : σ.normalsUsed + 32 + 32 * k = σ.normalsUsed + 32 * (1 + k) := by omega
    show (List.range 32).map (fun i => σ.normals.getD
      ((σ.normalsUsed + 32 + 32 * k + i) % σ.normals.length) 0) = _
    rw [hused]
    rfl

/-- a block takes no permutation and one decomposition -/
def Block.view : View Block := ⟨fun _ => [], fun b => [b.parts], Block.calls⟩

def Layer.view : View Layer := ⟨fun l => [l.perm], Layer.parts, Layer.calls⟩

/-- the block for a pair takes one decomposition -/
theorem adds_addPair {n k : Nat} {perm : List Int} (hk : 2 * k + 1 < perm.length) :
    Adds n 1 Block.view (Block.On (pairOf perm k)) (addPair perm k) := by
  intro σ hσ
  rw [addPair, qubitAt_of_lt (by omega), Job.perform_bind_ok (Job.perform_lift _ _ _),
    qubitAt_of_lt hk, Job.perform_bind_ok (Job.perform_lift _ _ _)]
  constructor
  · intro hd
    have hu := perform_drawUnitary_four σ
    rw [if_pos (hd 0 (by omega))] at hu
    have hps : ∀ p ∈ (nextOf [] σ.decompositions).1, p.Elementary := by
      rcases List.mem_cons.1 (nextOf_mem [] σ.decompositions) with h | h
      · simp [h]
      · exact hσ.parts _ h
    have hnext : Job.nextDecomposition.perform
        ((σ.skipNormals 32).say [.call .decompose]) =
          (.ok (nextOf [] σ.decompositions).1, (useBlock σ).say [.call .decompose]) := rfl
    refine ⟨⟨_, gatesOn _ _⟩, _, ?_, laid_useBlock n σ _, rfl, ⟨hps, rfl⟩⟩
    rw [Job.perform_bind_ok hu, Job.perform_bind_ok (Job.perform_say _ _),
      Job.perform_bind_ok hnext]
    dsimp only
    rw [block_elementary hps, Job.perform_bind_ok (Job.perform_callAll _ _)]
    show (Except.ok (), _) = _
    rw [Session.say_say]
    rfl
  · intro hnot
    have hfactor : ¬Factors 4 (sample σ 0) := by
      intro h0
      refine hnot fun i hi => ?_
      obtain rfl : i = 0 := by omega
      exact h0
    have hu := perform_drawUnitary_four σ
    rw [if_neg hfactor] at hu
    exact ⟨_, Job.perform_bind_error hu⟩

theorem perform_nextPermutation (n : Nat) (σ : Session) :
    (Job.nextPermutation (.value n)).perform σ =
      (.ok (nextOf (indices n) σ.permutations).1,
        { σ with permutations := (nextOf (indices n) σ.permutations).2 }) := by
  rw [Job.nextPermutation, Job.perform_bind_ok (Job.perform_get σ)]
  rcases hps : σ.permutations with _ | ⟨p, _ | ⟨q, ps⟩⟩
  · show (Except.ok (indices n), σ) = _
    rw [nextOf, ← hps]
  · rfl
  · rfl

theorem pairs_natCast (n : Nat) : pairs n = n / 2 := by
  rw [pairs, Int.fdiv_eq_ediv_of_nonneg _ (by omega)]
  omega

/-- a layer takes one permutation, and a decomposition for each pair -/
theorem adds_addLayer (n : Nat) :
    Adds n (n / 2) Layer.view (Layer.Made n) (addLayer (.value n)) := by
  intro σ hσ
  generalize hperm : (nextOf (indices n) σ.permutations).1 = perm
  let τ : Session := { σ with permutations := (nextOf (indices n) σ.permutations).2 }
  have hnext : (Job.nextPermutation (.value n)).perform σ = (.ok perm, τ) := by
    rw [perform_nextPermutation, hperm]
  have hmade : perm.Perm (indices n) := by
    rw [← hperm]
    rcases List.mem_cons.1 (nextOf_mem (indices n) σ.permutations) with h | h
    · rw [h]
    · exact hσ.perms _ h
  have hlaid : Laid n σ τ [perm] [] [] := {
    events := (List.append_nil _).symm
    permutations := hperm ▸ Taken.next _ _
    decompositions := Taken.refl _ _
    samples := fun k => by rw [List.length_nil, Nat.zero_add]; rfl }
  have hlen : perm.length = n := by
    rw [hmade.length_eq, indices_length, Int.toNat_natCast]
  have hloop : Adds n ((List.range (n / 2)).length * 1) Block.view.list
      (List.Forall₂ (fun k b => Block.On (pairOf perm k) b) (List.range (n / 2)))
      ((List.range (n / 2)).forM (addPair perm)) := by
    apply adds_forM
    intro k hk
    have hk := List.mem_range.1 hk
    exact adds_addPair (by omega)
  rw [List.length_range, Nat.mul_one] at hloop
  obtain ⟨hblocks, hstop⟩ := hloop τ (hσ.after hlaid)
  rw [addLayer, Job.perform_bind_ok hnext, Job.perform_bind_ok (Job.perform_given _ _ _),
    pairs_natCast, hlaid.draws_iff_of_nil]
  refine ⟨fun hd => ?_, hstop⟩
  obtain ⟨bs, υ, hbs, hrest, hcount, hon⟩ := hblocks hd
  have hperms : Block.view.list.perms bs = [] := List.flatMap_eq_nil_iff.2 fun _ _ => rfl
  have hparts : Block.view.list.parts bs = bs.map Block.parts := List.map_eq_flatMap.symm
  rw [hperms, hparts] at hrest
  rw [hparts] at hcount
  exact ⟨⟨perm, bs⟩, υ, hbs, hlaid.trans hrest, hcount, hmade, hon⟩

def circuitCalls (ls : List Layer) : List Call :=
  .circuit ["q", "c"] :: ls.flatMap Layer.calls ++ [.barrier (some "q"), .measure "q" "c"]

def circuitView : View (List Layer) where
  perms := List.map Layer.perm
  parts := List.flatMap Layer.parts
  calls := circuitCalls

theorem adds_addCircuit (n depth : Nat) :
    Adds n (depth * (n / 2)) circuitView (fun ls => ls.length = depth ∧ ∀ l ∈ ls, l.Made n)
      (addCircuit (.value n) (.value depth)) := by
  intro σ hσ
  have hopen := Laid.say n σ [.circuit ["q", "c"]]
  obtain ⟨hlayers, hstop⟩ := adds_repeatJob depth (adds_addLayer n) _ (hσ.after hopen)
  rw [addCircuit, Job.perform_bind_ok (Job.perform_say _ _),
    Job.perform_bind_ok (Job.perform_given _ _ _), Int.toNat_natCast, hopen.draws_iff_of_nil]
  constructor
  · intro hd
    obtain ⟨ls, υ, hls, hlaid, hlen, hmade⟩ := hlayers hd
    have hclose := Laid.say n υ [.barrier (some "q"), .measure "q" "c"]
    have hperms : Layer.view.list.perms ls = ls.map Layer.perm := List.map_eq_flatMap.symm
    have hall := (hopen.trans hlaid).trans hclose
    rw [hperms, List.nil_append, List.append_nil, List.nil_append, List.append_nil] at hall
    exact ⟨ls, _, (Job.perform_bind_ok hls).trans (Job.perform_callAll _ _), hall, hlen, hmade⟩
  · intro hnot
    obtain ⟨υ, hυ⟩ := hstop hnot
    exact ⟨υ, Job.perform_bind_error hυ⟩

/-- the calls that make the registers of `n` qubits and bits -/
def registerCalls (n : Nat) : List Call :=
  [.quantumRegister "q" (.value n), .classicalRegister "c" (.value n)]

/-- from one session to the other these circuits were built, with all their layers; the permutations
and the decompositions are those that the first session gives, in order -/
structure Built (n depth : Nat) (σ σ' : Session) (circuits : List (List Layer)) : Prop where
  events : σ'.events = σ.events ++ (registerCalls n ++ circuits.flatMap circuitCalls).map .call
  layers : ∀ ls ∈ circuits, ls.length = depth
  perms : circuits.flatten.map Layer.perm =
    (List.range (circuits.length * depth)).map (itemAt (indices n) σ.permutations)
  parts : circuits.flatten.flatMap Layer.parts =
    (List.range (circuits.length * depth * (n / 2))).map (itemAt [] σ.decompositions)
  left : ∀ k, itemAt [] σ'.decompositions k =
    itemAt [] σ.decompositions (circuits.length * depth * (n / 2) + k)
  sound : ∀ l ∈ circuits.flatten, l.Sound n

theorem length_flatten_of_forall {α : Type} {d : Nat} {xss : List (List α)}
    (h : ∀ xs ∈ xss, xs.length = d) : xss.flatten.length = xss.length * d := by
  rw [List.length_flatten, List.map_congr_left h, List.map_const', List.sum_replicate, smul_eq_mul]

theorem built_of_laid {n depth : Nat} {σ σ' : Session} {cs : List (List Layer)}
    (hlaid : Laid n σ σ' ([] ++ circuitView.list.perms cs) ([] ++ circuitView.list.parts cs)
      (registerCalls n ++ circuitView.list.calls cs))
    (hlen : (circuitView.list.parts cs).length = cs.length * (depth * (n / 2)))
    (hgood : ∀ ls ∈ cs, ls.length = depth ∧ ∀ l ∈ ls, l.Made n) : Built n depth σ σ' cs := by
  have hdepth : ∀ ls ∈ cs, ls.length = depth := fun ls hls => (hgood ls hls).1
  have hperms : [] ++ circuitView.list.perms cs = cs.flatten.map Layer.perm :=
    List.map_flatten.symm
  have hparts : [] ++ circuitView.list.parts cs = cs.flatten.flatMap Layer.parts := by
    rw [← List.flatMap_id, List.flatMap_assoc]
    rfl
  have hlens : (cs.flatten.map Layer.perm).length = cs.length * depth := by
    rw [List.length_map, length_flatten_of_forall hdepth]
  have hcount : (cs.flatten.flatMap Layer.parts).length = cs.length * depth * (n / 2) := by
    rw [← hparts, List.nil_append, hlen, Nat.mul_assoc]
  rw [hperms, hparts] at hlaid
  exact {
    events := hlaid.events
    layers := hdepth
    perms := hlens ▸ hlaid.permutations.drawn
    parts := hcount ▸ hlaid.decompositions.drawn
    left := hcount ▸ hlaid.decompositions.left
    sound := by
      intro l hl
      obtain ⟨ls, hls, hmem⟩ := List.mem_flatten.1 hl
      exact ((hgood ls hls).2 l hmem).sound }

/-- **Model circuits are layers of blocks.**  Whatever permutations and elementary decompositions
the session supplies, all circuits are built, layer by layer; only a drawn matrix that has no factor
in machine numbers ends this early. -/
theorem model_circuits_are_layered (n depth count : Nat) (σ : Session) (hσ : Supplies n σ) :
    (Draws σ (count * depth * (n / 2)) →
      ∃ (circuits : List (List Layer)) (σ' : Session),
        (build (.value n) (.value depth) (.value count)).perform σ = (.ok count, σ') ∧
        circuits.length = count ∧ Built n depth σ σ' circuits) ∧
    (¬Draws σ (count * depth * (n / 2)) →
      ∃ σ', (build (.value n) (.value depth) (.value count)).perform σ =
        (.error .notFinite, σ')) := by
  have hopen := Laid.say n σ (registerCalls n)
  obtain ⟨hcircuits, hstop⟩ := adds_repeatJob count (adds_addCircuit n depth) _ (hσ.after hopen)
  rw [build, Job.perform_bind_ok (Job.perform_callAll _ _),
    Job.perform_bind_ok (Job.perform_given _ _ _), Int.toNat_natCast, Nat.mul_assoc,
    hopen.draws_iff_of_nil]
  constructor
  · intro hd
    obtain ⟨cs, υ, hcs, hlaid, hlen, rfl, hgood⟩ := hcircuits hd
    exact ⟨cs, υ, Job.perform_bind_ok hcs, rfl, built_of_laid (hopen.trans hlaid) hlen hgood⟩
  · intro hnot
    obtain ⟨υ, hυ⟩ := hstop hnot
    exact ⟨υ, Job.perform_bind_error hυ⟩

/-- two permutations of three qubits, two decompositions with all kinds of gates, and the matrix
with the diagonal `1, 2, 3, 4` -/
def threeQubits : Session :=
  { Session.initial with
    permutations := [[2, 0, 1], [1, 2, 0]]
    decompositions :=
      [[⟨some "u3", some [1], some [.whole 1, .whole 2, .whole 3]⟩,
          ⟨some "cx", some [1, 0], none⟩],
        [⟨some "id", some [0, 1], none⟩,
          ⟨some "u2", some [0], some [.whole 1, .whole 2, .whole 3]⟩,
          ⟨some "u1", some [1, 1], some [.whole 1, .whole 2, .whole 3]⟩]]
    normals := [1, 0, 0, 0, 0, 2, 0, 0, 0, 0, 3, 0, 0, 0, 0, 4] ++ List.replicate 16 0 }

theorem supplies_threeQubits : Supplies 3 threeQubits where
  perms := by decide
  parts := by
    simp only [threeQubits, List.forall_mem_cons, List.not_mem_nil, false_implies, implies_true,
      and_true]
    exact ⟨⟨.u3 _ _ _ (by decide), .cx _ (by decide) (by decide) (by decide)⟩,
      .id _ (by decide), .u2 _ _ _ (by decide), .u1 _ _ _ (by decide)⟩

theorem draws_threeQubits : Draws threeQubits 4 := by
  unfold Draws Factors
  decide +kernel

/-- with an odd number of qubits one of them is left out of every layer -/
theorem three_qubit_circuits_are_layered :
    Supplies 3 threeQubits ∧ Draws threeQubits (2 * 2 * (3 / 2)) ∧
    ∃ (circuits : List (List Layer)) (σ' : Session),
      (build (.value 3) (.value 2) (.value 2)).perform threeQubits = (.ok 2, σ') ∧
      circuits.length = 2 ∧ Built 3 2 threeQubits σ' circuits :=
  ⟨supplies_threeQubits, draws_threeQubits,
    (model_circuits_are_layered 3 2 2 threeQubits supplies_threeQubits).1 draws_threeQubits⟩

end Generate.Volume

end CircuitBench
