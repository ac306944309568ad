import CircuitBench.Generate.CounterfeitCoin
import CircuitBench.Proofs.Quantum.LastWire
import CircuitBench.Proofs.Session
import CircuitBench.Proofs.Toolkit.Recording

/-!
# What the balance tells about the coins

The state of the circuit is the sum of two products, one for each sign of the coins, `pair`.  Taking
the parity and measuring it leaves a branch for even and one for odd queries (`run_query`).  In
the even branch the balance changes the sign of the false coin, in the odd branch the query is
undone (`run_even`, `run_odd`); at the end each product holds one value for every coin, so that four
readings are left (`chance_outcomes`).

`balance_finds_coin` gives their values and their chances, for the circuit that the calls to the
toolkit have recorded.
-/

namespace CircuitBench.CounterfeitCoin

open Quantum Query Matrix Complex

noncomputable section

theorem circuit_withAngles {θ θ' : Type} (f : θ → θ') (n coin : Int) :
    (circuit n coin).withAngles f = circuit n coin := by
  simp [circuit, Circuit.withAngles, body, query, prepare, balance, readOut, gate, whenEven,
    whenOdd, Instruction.withAngles, Gate.withAngles, Function.comp_def]

theorem forall_mem_body {θ : Type} {n coin : Int} {P : Instruction θ → Prop} :
    (∀ i ∈ body n coin, P i) ↔
      ((∀ i ∈ indices n, P (gate (.h (qubit i)))) ∧
        (∀ i ∈ indices n, P (gate (.cx (qubit i) (qubit n)))) ∧
        P (.measure (qubit n) (result n))) ∧
      (P (whenEven (.x (qubit n))) ∧ P (whenEven (.h (qubit n))) ∧
        ∀ i ∈ indices n, P (whenOdd n (.h (qubit i)))) ∧
      (P (.barrier none) ∧ P (whenEven (.cx (qubit coin) (qubit n)))) ∧
      (∀ i ∈ indices n, P (whenEven (.h (qubit i)))) ∧
      ∀ i ∈ indices n, P (.measure (qubit i) (result i)) := by
  simp only [body, query, prepare, balance, readOut, List.forall_mem_append, List.forall_mem_map,
    List.forall_mem_cons, List.not_mem_nil, IsEmpty.forall_iff, implies_true, and_true]
  tauto

theorem legible_body {θ : Type} (n coin : Int) : ∀ i ∈ body (θ := θ) n coin, i.Legible := by
  refine forall_mem_body.2 ⟨⟨?_, ?_, ?_⟩, ⟨?_, ?_, ?_⟩, ⟨trivial, ?_⟩, ?_, ?_⟩ <;>
    simp [Instruction.Legible, gate, whenEven, whenOdd, Gate.operands]

variable {n : Int}

/-! ## sums of two products -/

section
attribute [local instance] atLeastTwo_two

/-- a product for each sign, in equal parts; `v` is the sign between them -/
def pair (v : Bool) (a : Bool → ℂ) (q : Bool → Int → Bool → ℂ) : State (Wire [upTo "qr" n]) :=
  (1 / 2 : ℂ) • (tensor (apart a (q false)) + (if v then -1 else 1 : ℂ) • tensor (apart a (q true)))

end

/-- an operator that keeps both products keeps the sum -/
theorem mulVec_pair {U : Operator (Wire [upTo "qr" n])} {a a' : Bool → ℂ}
    {q q' : Bool → Int → Bool → ℂ}
    (h : ∀ s, U *ᵥ tensor (apart a (q s)) = tensor (apart a' (q' s))) (v : Bool) :
    U *ᵥ pair v a q = pair v a' q' := by
  rw [pair, mulVec_smul, mulVec_add, mulVec_smul, h, h, pair]

/-- reading a sum whose products differ in the value of some coin -/
theorem readChance_pair (P : (Bit → Bool) → Prop) [DecidablePred P] (v : Bool) {a : Bool → ℂ}
    (ha : ∑ b, normSq (a b) = 1) (z : Bool → Int → Bool) {i : Int} (hi : i ∈ indices n)
    (hz : z false i ≠ z true i) (memory : Bit → Bool) :
    readChance P (reads "qr" n "cr") memory (pair v a fun s i => ket (z s i))
      = ([false, true].map fun s =>
          if P (inscribed "cr" (indices n) (z s) memory) then (1 / 4 : ℝ) else 0).sum := by
  have hdisjoint (x : Basis (Wire [upTo "qr" n])) :
      tensor (apart a fun i => ket (z false i)) x = 0 ∨
        ((if v then -1 else 1 : ℂ) • tensor (apart a fun i => ket (z true i))) x = 0 := by
    by_contra h
    obtain ⟨h0, h1⟩ := not_or.1 h
    rw [Pi.smul_apply] at h1
    -- both products would give the value of wire `i` in `x`
    let w : Wire [upTo "qr" n] := ⟨⟨"qr", i⟩, inside_upTo "qr" n hi⟩
    have hw : w.1.index ≠ n := (index_mem_iff "qr" n w).1 hi
    have f0 := factor_ne_zero h0 w
    have f1 := factor_ne_zero (right_ne_zero_of_smul h1) w
    rw [apart, if_neg hw] at f0 f1
    exact hz ((eq_of_ket_ne_zero f0).symm.trans (eq_of_ket_ne_zero f1))
  have hsign : normSq (if v then -1 else 1 : ℂ) = 1 := by
    cases v <;> simp
  have hquarter : normSq (1 / 2 : ℂ) = 1 / 4 := by
    rw [map_div₀, map_one, normSq_ofNat]
    norm_num
  rw [pair, readChance_smul, readChance_add P _ _ _ _ hdisjoint, readChance_smul, hsign, one_mul,
    readChance_apart P "cr" ha, readChance_apart P "cr" ha, hquarter]
  simp only [List.map_cons, List.map_nil, List.sum_cons, List.sum_nil, add_zero, mul_add, mul_ite,
    mul_one, mul_zero]

/-! ## the two branches -/

/-- the classical bits after the parity is measured -/
def parity (n : Int) (v : Bool) : Bit → Bool := Function.update (fun _ => false) (result n) v

/-- the sum of both signs, once the last wire is seen to hold `v` -/
theorem observed_signs (hn : 0 ≤ n) (v : Bool) :
    observed (lastWire "qr" n hn) v ((1 / √2 : ℂ)
        • (tensor (apart (slanted false) fun _ => slanted false)
          + tensor (apart (slanted true) fun _ => slanted true)))
      = pair v (ket v) fun s _ => slanted s := by
  have hs (s : Bool) : (1 / √2 : ℂ) * slanted s v = 1 / 2 * if v && s then -1 else 1 := by
    rw [slanted, div_mul_div_comm, one_mul, sqrt_two_mul_sqrt_two]
    ring
  rw [observed_smul, observed_add, observed_apart, observed_apart, smul_add, smul_smul, smul_smul,
    hs, hs, pair, smul_add, smul_smul, Bool.and_false, Bool.and_true, if_neg Bool.false_ne_true,
    mul_one]

/-- the query measures the parity and leaves the coins in both signs -/
theorem run_query (hn : 0 ≤ n) :
    run [upTo "qr" n] [upTo "cr" n] (query n) (.initial _)
      = [false, true].map fun v => ⟨parity n v, pair v (ket v) fun s _ => slanted s⟩ := by
  have hq : query n = (turns "qr" n).map (lifted none)
      ++ ((collects "qr" hn (indices n) fun _ h => h).map (lifted none)
        ++ [.measure (qubit n) (result n)]) := by
    rw [turns_lifted, collects_lifted, query, List.append_assoc]
    rfl
  have hc (b : Bool) : gatesOperator (collects "qr" hn (indices n) fun _ h => h)
        *ᵥ tensor (apart (slanted b) fun _ => slanted false)
      = tensor (apart (slanted b) fun _ => slanted b) := by
    rw [collects_apart "qr" hn (fun _ h => h) (indices_nodup n) b fun _ => false]
    congr 1
    apply apart_congr
    intro i hi
    rw [decide_eq_true hi, Bool.true_and, Bool.false_xor]
  -- the last wire holds zero, which is both signs in equal parts; each sign goes to all coins
  have hsigns : gatesOperator (collects "qr" hn (indices n) fun _ h => h)
        *ᵥ tensor (apart (ket false) fun _ => slanted false)
      = (1 / √2 : ℂ) • (tensor (apart (slanted false) fun _ => slanted false)
          + tensor (apart (slanted true) fun _ => slanted true)) := by
    rw [apart_ket_false hn, mulVec_smul, mulVec_add, hc, hc]
  have hw : wire? [upTo "qr" n] (qubit n) = some (lastWire "qr" n hn) :=
    wire?_val _ (lastWire "qr" n hn)
  have hr : (result n).inside [upTo "cr" n] := (lastWire "cr" n hn).2
  rw [initial_apart, hq, run_append_of_eq (run_gates _ (turns_operands "qr" n) _ rfl), turns_apart,
    hadamard_mulVec_ket, run_append_of_eq (run_gates _ (collects_operands "qr" hn _) _ rfl),
    hsigns, run, step, measureBit, hw]
  simp only [if_pos hr, observed_signs]
  rfl

/-- the parity in the register as a number -/
theorem registerValue_parity (hn : 0 ≤ n) (v : Bool) :
    registerValue (upTo "cr" n) (parity n v) = if v then 2 ^ n.toNat else 0 := by
  have hlast : parity n v ⟨"cr", n⟩ = v := Function.update_self ..
  have hsum : ((List.range n.toNat).map fun i : Nat =>
      if parity n v ⟨"cr", i⟩ then 2 ^ i else 0).sum = 0 := by
    apply List.sum_eq_zero
    intro k hk
    obtain ⟨i, hi, rfl⟩ := List.mem_map.1 hk
    have hne : (⟨"cr", i⟩ : Bit) ≠ result n := by
      intro e
      have hin : (i : Int) = n := congrArg Bit.index e
      have := List.mem_range.1 hi
      omega
    rw [parity, Function.update_of_ne hne]
    rfl
  rw [registerValue_upTo "cr" n hn, hsum, hlast, zero_add]

theorem passes?_even (hn : 0 ≤ n) (v : Bool) :
    passes? [upTo "cr" n] (parity n v) (some ⟨"cr", 0⟩) = some (!v) := by
  show some (registerValue (upTo "cr" n) (parity n v) == 0) = some (!v)
  rw [registerValue_parity hn]
  cases v <;> simp

theorem passes?_odd (hn : 0 ≤ n) (v : Bool) :
    passes? [upTo "cr" n] (parity n v) (some ⟨"cr", 2 ^ n.toNat⟩) = some v := by
  have hp := Nat.two_pow_pos n.toNat
  show some (registerValue (upTo "cr" n) (parity n v) == 2 ^ n.toNat) = some v
  rw [registerValue_parity hn]
  cases v
  · simp [hp.ne]
  · simp

/-- what lies between the two measurements -/
def weighing (n coin : Int) : List (Instruction ℝ) :=
  prepare n ++ balance n coin ++ (indices n).map fun i => whenEven (.h (qubit i))

theorem weighing_eq (hn : 0 ≤ n) {coin : Int} (hc : ∀ i ∈ [coin], i ∈ indices n) :
    weighing n coin
      = (readies "qr" hn).map (lifted (some ⟨"cr", 0⟩))
        ++ ((turns "qr" n).map (lifted (some ⟨"cr", 2 ^ n.toNat⟩))
          ++ (.barrier none :: ((collects "qr" hn [coin] hc).map (lifted (some ⟨"cr", 0⟩))
            ++ (.barrier none :: (turns "qr" n).map (lifted (some ⟨"cr", 0⟩)))))) := by
  rw [turns_lifted, turns_lifted, collects_lifted]
  simp only [weighing, prepare, balance, List.append_assoc]
  rfl

/-- an even query: the balance changes the sign of the false coin -/
theorem run_even (hn : 0 ≤ n) {coin : Int} (hc : ∀ i ∈ [coin], i ∈ indices n) :
    run [upTo "qr" n] [upTo "cr" n] (weighing n coin)
        ⟨parity n false, pair false (ket false) fun s _ => slanted s⟩
      = [⟨parity n false,
          pair false (slanted true) fun s i => ket (s ^^ decide (i = coin))⟩] := by
  have hready : gatesOperator (readies "qr" hn) *ᵥ pair false (ket false) (fun s _ => slanted s)
      = pair false (slanted true) fun s _ => slanted s :=
    mulVec_pair (fun _ => readies_apart "qr" hn _) false
  have hweigh : gatesOperator (collects "qr" hn [coin] hc)
        *ᵥ pair false (slanted true) (fun s _ => slanted s)
      = pair false (slanted true) fun s i => slanted (s ^^ decide (i = coin)) := by
    apply mulVec_pair
    intro s
    rw [collects_apart "qr" hn hc (List.nodup_singleton coin) true fun _ => s]
    simp only [List.mem_singleton, Bool.and_true]
  have hturn : gatesOperator (turns "qr" n)
        *ᵥ pair false (slanted true) (fun s i => slanted (s ^^ decide (i = coin)))
      = pair false (slanted true) fun s i => ket (s ^^ decide (i = coin)) := by
    apply mulVec_pair
    intro s
    rw [turns_apart]
    simp only [hadamard_mulVec_slanted]
  have heven := passes?_even hn false
  have hodd := passes?_odd hn false
  rw [weighing_eq hn hc, run_append_of_eq (run_gates _ (readies_operands "qr" hn) _ heven), hready,
    run_append_of_eq (run_guarded _ (turns_operands "qr" n) _ hodd), run_barrier,
    run_append_of_eq (run_gates _ (collects_operands "qr" hn hc) _ heven), hweigh, run_barrier,
    run_gates _ (turns_operands "qr" n) _ heven, hturn]

/-- an odd query is undone -/
theorem run_odd (hn : 0 ≤ n) {coin : Int} (hc : ∀ i ∈ [coin], i ∈ indices n) :
    run [upTo "qr" n] [upTo "cr" n] (weighing n coin)
        ⟨parity n true, pair true (ket true) fun s _ => slanted s⟩
      = [⟨parity n true, pair true (ket true) fun s _ => ket s⟩] := by
  have hturn : gatesOperator (turns "qr" n) *ᵥ pair true (ket true) (fun s _ => slanted s)
      = pair true (ket true) fun s _ => ket s := by
    apply mulVec_pair
    intro s
    rw [turns_apart, hadamard_mulVec_slanted]
  have heven := passes?_even hn true
  have hodd := passes?_odd hn true
  rw [weighing_eq hn hc, run_append_of_eq (run_guarded _ (readies_operands "qr" hn) _ heven),
    run_append_of_eq (run_gates _ (turns_operands "qr" n) _ hodd), hturn, run_barrier,
    run_append_of_eq (run_guarded _ (collects_operands "qr" hn hc) _ heven), run_barrier,
    run_guarded _ (turns_operands "qr" n) _ heven]

/-! ## the four readings -/

/-- the classical bits at the end: `v` is the parity, `s` the value of the true coins -/
def reading (n coin : Int) (v s : Bool) : Bit → Bool :=
  inscribed "cr" (indices n) (fun i => s ^^ (!v && decide (i = coin))) (parity n v)

theorem reading_result (coin : Int) (v s : Bool) {i : Int} (hi : i ∈ indices n) :
    reading n coin v s (result i) = (s ^^ (!v && decide (i = coin))) :=
  if_pos ⟨rfl, hi⟩

theorem reading_last (coin : Int) (v s : Bool) : reading n coin v s (result n) = v := by
  have hn : ¬ ((result n).register = "cr" ∧ (result n).index ∈ indices n) := by
    rintro ⟨_, h⟩
    have := (mem_indices n _).1 h
    exact lt_irrefl n this.2
  rw [reading, inscribed, if_neg hn, parity, Function.update_self]

/-- the circuit ends with the four readings, one as often as the other -/
theorem chance_outcomes {coin : Int} (h0 : 0 ≤ coin) (hc : coin < n) (P : (Bit → Bool) → Prop)
    [DecidablePred P] :
    chance P (circuit n coin).outcomes
      = ([false, true].map fun v =>
          ([false, true].map fun s =>
            if P (reading n coin v s) then (1 / 4 : ℝ) else 0).sum).sum := by
  have hn : 0 ≤ n := by omega
  have hmem : coin ∈ indices n := (mem_indices n coin).2 ⟨h0, hc⟩
  have hcoin : ∀ i ∈ [coin], i ∈ indices n := by
    intro i hi
    rwa [List.mem_singleton.1 hi]
  have hbody : body n coin = query n ++ (weighing n coin
      ++ (indices n).map fun i => (.measure ⟨"qr", i⟩ ⟨"cr", i⟩ : Instruction ℝ)) := by
    rw [body, readOut, weighing]
    simp only [List.append_assoc]
    rfl
  have hin : ∀ i ∈ indices n, Bit.inside [upTo "cr" n] ⟨"cr", i⟩ := fun i => inside_upTo "cr" n
  have heven : chance P (run [upTo "qr" n] [upTo "cr" n] (weighing n coin
        ++ (indices n).map fun i => .measure ⟨"qr", i⟩ ⟨"cr", i⟩)
        ⟨parity n false, pair false (ket false) fun s _ => slanted s⟩)
      = ([false, true].map fun s => if P (reading n coin false s) then (1 / 4 : ℝ) else 0).sum := by
    rw [run_append_of_eq (run_even hn hcoin), chance_run_reads P hin]
    exact readChance_pair P false (sum_normSq_slanted true) (fun s i => s ^^ decide (i = coin))
      hmem (by simp) _
  have hodd : chance P (run [upTo "qr" n] [upTo "cr" n] (weighing n coin
        ++ (indices n).map fun i => .measure ⟨"qr", i⟩ ⟨"cr", i⟩)
        ⟨parity n true, pair true (ket true) fun s _ => slanted s⟩)
      = ([false, true].map fun s => if P (reading n coin true s) then (1 / 4 : ℝ) else 0).sum := by
    rw [run_append_of_eq (run_odd hn hcoin), chance_run_reads P hin,
      readChance_pair P true (sum_normSq_ket true) (fun s _ => s) hmem Bool.false_ne_true]
    simp only [reading, Bool.not_true, Bool.false_and, Bool.xor_false]
  rw [Circuit.outcomes]
  show chance P (run [upTo "qr" n] [upTo "cr" n] (body n coin) (.initial [upTo "qr" n])) = _
  rw [hbody, run_append, run_query hn, chance_flatMap, List.map_map]
  simp only [List.map_cons, List.map_nil, Function.comp_apply, heven, hodd]

/-! ## the readings as numbers -/

theorem sum_bits_single (k c : Nat) :
    ((List.range k).map fun i => if decide (i = c) then 2 ^ i else 0).sum
      = if c < k then 2 ^ c else 0 := by
  induction k with
  | zero => rfl
  | succ k ih =>
    rw [List.range_succ, List.map_append, List.sum_append, ih, List.map_singleton,
      List.sum_singleton]
    rcases Nat.lt_trichotomy c k with h | rfl | h
    · have hk : k ≠ c := by omega
      simp [h, hk, Nat.lt_succ_of_lt h]
    · simp
    · have hk : k ≠ c := by omega
      have h1 : ¬ c < k := by omega
      have h2 : ¬ c < k + 1 := by omega
      simp [hk, h1, h2]

theorem sum_bits_not (k : Nat) (z : Nat → Bool) :
    ((List.range k).map fun i => if z i then 2 ^ i else 0).sum
      + ((List.range k).map fun i => if !z i then 2 ^ i else 0).sum + 1 = 2 ^ k := by
  induction k with
  | zero => rfl
  | succ k ih =>
    simp only [List.range_succ, List.map_append, List.sum_append, List.map_singleton,
      List.sum_singleton, Nat.pow_succ]
    cases z k
    · simp only [Bool.false_eq_true, if_false, Bool.not_false, if_true]
      omega
    · simp only [Bool.not_true, Bool.false_eq_true, if_false, if_true]
      omega

/-- the number in the register: the false coin alone or all others, or none or all of them -/
theorem registerValue_reading {coin : Int} (h0 : 0 ≤ coin) (hc : coin < n) (v s : Bool) :
    registerValue (upTo "cr" n) (reading n coin v s)
      = (match v, s with
        | false, false => 2 ^ coin.toNat
        | false, true => 2 ^ n.toNat - 1 - 2 ^ coin.toNat
        | true, false => 2 ^ n.toNat
        | true, true => 2 ^ (n.toNat + 1) - 1) := by
  have hbits : ((List.range n.toNat).map fun i : Nat =>
        if reading n coin v s ⟨"cr", i⟩ then 2 ^ i else 0)
      = (List.range n.toNat).map fun i : Nat =>
          if s ^^ (!v && decide (i = coin.toNat)) then 2 ^ i else 0 := by
    apply List.map_congr_left
    intro i hi
    have hm : (i : Int) ∈ indices n := by
      have := List.mem_range.1 hi
      rw [mem_indices]
      omega
    have hcoin : (i : Int) = coin ↔ i = coin.toNat := by omega
    have hr := reading_result coin v s hm
    rw [result] at hr
    simp only [hr, hcoin]
  have hlast : reading n coin v s ⟨"cr", n⟩ = v := reading_last coin v s
  rw [registerValue_upTo "cr" n (by omega), hbits, hlast]
  have hone := sum_bits_single n.toNat coin.toNat
  have hothers := sum_bits_not n.toNat fun i => decide (i = coin.toNat)
  have hall := sum_bits_not n.toNat fun _ => false
  rw [if_pos (by omega)] at hone
  cases v <;> cases s
  · simpa using hone
  · simp only [Bool.not_false, Bool.true_and, Bool.true_xor, Bool.false_eq_true, if_false]
    omega
  · simp
  · simp only [Bool.not_true, Bool.false_and, Bool.true_xor, Bool.not_false, if_true] at hall ⊢
    simp only [Bool.false_eq_true, if_false, List.map_const', List.sum_replicate, smul_zero] at hall
    rw [Nat.pow_succ]
    omega

theorem four_values_nodup {coin : Int} (h0 : 0 ≤ coin) (hc : coin < n) :
    [2 ^ coin.toNat, 2 ^ n.toNat - 1 - 2 ^ coin.toNat, 2 ^ n.toNat,
      2 ^ (n.toNat + 1) - 1].Nodup := by
  obtain ⟨m, hm⟩ : ∃ m, n.toNat = m + 1 := ⟨n.toNat - 1, by omega⟩
  have hlt : 2 ^ coin.toNat < 2 ^ n.toNat := Nat.pow_lt_pow_right (by decide) (by omega)
  have hpos := Nat.two_pow_pos coin.toNat
  have hmpos := Nat.two_pow_pos m
  rw [Nat.pow_succ]
  rw [hm, Nat.pow_succ] at hlt ⊢
  simp only [List.nodup_cons, List.mem_cons, List.not_mem_nil, or_false, List.nodup_nil, and_true,
    not_or, not_false_iff]
  omega

/-- a quarter for each of different values -/
theorem sum_quarters {l : List Nat} (h : l.Nodup) (x : Nat) :
    (l.map fun a => if a = x then (1 / 4 : ℝ) else 0).sum = if x ∈ l then 1 / 4 else 0 := by
  induction l with
  | nil => rfl
  | cons a l ih =>
    obtain ⟨ha, hl⟩ := List.nodup_cons.1 h
    rw [List.map_cons, List.sum_cons, ih hl]
    by_cases hx : a = x
    · subst hx
      simp [ha]
    · simp [hx, Ne.symm hx]

/-! ## finding the coin -/

/-- the coin is the only one whose bit differs from the bits of all others -/
def pointsAt (n coin : Int) (memory : Bit → Bool) : Prop :=
  ∀ i ∈ indices n,
    (∀ j ∈ indices n, j ≠ i → memory (result j) ≠ memory (result i)) ↔ i = coin

instance (n coin : Int) (memory : Bit → Bool) : Decidable (pointsAt n coin memory) :=
  inferInstanceAs (Decidable (∀ i ∈ indices n,
    (∀ j ∈ indices n, j ≠ i → memory (result j) ≠ memory (result i)) ↔ i = coin))

theorem pointsAt_reading (hn : 3 ≤ n) (coin : Int) (s : Bool) :
    pointsAt n coin (reading n coin false s) := by
  intro i hi
  have hvalue {j : Int} (hj : j ∈ indices n) :
      reading n coin false s (result j) = (s ^^ decide (j = coin)) := reading_result coin false s hj
  constructor
  · intro h
    by_contra hne
    -- a third coin has the same bit as coin `i`
    obtain ⟨j, hj, hji, hjc⟩ : ∃ j, j ∈ indices n ∧ j ≠ i ∧ j ≠ coin := by
      simp only [mem_indices]
      have h3 : (i ≠ 0 ∧ coin ≠ 0) ∨ (i ≠ 1 ∧ coin ≠ 1) ∨ (i ≠ 2 ∧ coin ≠ 2) := by omega
      rcases h3 with h3 | h3 | h3
      · exact ⟨0, by omega⟩
      · exact ⟨1, by omega⟩
      · exact ⟨2, by omega⟩
    apply h j hj hji
    rw [hvalue hj, hvalue hi, decide_eq_false hjc, decide_eq_false hne]
  · rintro rfl j hj hji
    rw [hvalue hj, hvalue hi, decide_eq_false hji, decide_eq_true rfl]
    cases s <;> decide

/-- **What the balance tells.**  The calls record a circuit that ends with one of four numbers in
its classical register, each with probability one quarter.  With three coins or more, whenever the
last bit is zero the false coin is the one that differs from all others. -/
theorem balance_finds_coin (n coin : Int) (h0 : 0 ≤ coin) (hc : coin < n) (σ : Session)
    (f : Number → ℝ) :
    ∃ (calls : List Call) (c : Circuit Number),
      (Generate.CounterfeitCoin.build n coin).perform σ = (.ok (), σ.say (calls.map .call)) ∧
      Circuit.recorded? calls = some c ∧
      c.quantum = [⟨"qr", n + 1⟩] ∧ c.classical = [⟨"cr", n + 1⟩] ∧
      [2 ^ coin.toNat, 2 ^ n.toNat - 1 - 2 ^ coin.toNat, 2 ^ n.toNat,
        2 ^ (n.toNat + 1) - 1].Nodup ∧
      (∀ value : Nat,
        chance (fun memory => registerValue ⟨"cr", n + 1⟩ memory = value) (c.withAngles f).outcomes
          = if value ∈ [2 ^ coin.toNat, 2 ^ n.toNat - 1 - 2 ^ coin.toNat, 2 ^ n.toNat,
              2 ^ (n.toNat + 1) - 1] then 1 / 4 else 0) ∧
      (3 ≤ n →
        chance (fun memory => memory (result n) = false ∧ pointsAt n coin memory)
            (c.withAngles f).outcomes = 1 / 2 ∧
        chance (fun memory => memory (result n) = false ∧ ¬ pointsAt n coin memory)
            (c.withAngles f).outcomes = 0) := by
  have hnodup := four_values_nodup h0 hc
  refine ⟨_, circuit n coin, Job.perform_callAll _ σ,
    Circuit.recorded?_calls _ name (legible_body n coin), rfl, rfl, hnodup, ?_⟩
  rw [circuit_withAngles]
  refine ⟨?_, ?_⟩
  · intro value
    have hsum := sum_quarters hnodup value
    simp only [List.map_cons, List.map_nil, List.sum_cons, List.sum_nil] at hsum
    rw [chance_outcomes h0 hc, ← hsum]
    simp only [List.map_cons, List.map_nil, List.sum_cons, List.sum_nil,
      registerValue_reading h0 hc, add_zero, add_assoc]
  · intro hn
    rw [chance_outcomes h0 hc, chance_outcomes h0 hc]
    simp only [List.map_cons, List.map_nil, List.sum_cons, List.sum_nil, reading_last,
      pointsAt_reading hn, not_true, and_false, and_true, if_true, if_false, Bool.true_eq_false]
    norm_num

/-- the middle one of three coins -/
theorem balance_finds_middle_coin :
    0 ≤ (1 : Int) ∧ (1 : Int) < 3 ∧ ∃ (calls : List Call) (c : Circuit Number),
      (Generate.CounterfeitCoin.build 3 1).perform .initial
        = (.ok (), Session.initial.say (calls.map .call)) ∧
      Circuit.recorded? calls = some c ∧
      (∀ value : Nat,
        chance (fun memory => registerValue ⟨"cr", 3 + 1⟩ memory = value)
            (c.withAngles fun _ => 0).outcomes
          = if value ∈ [2, 5, 8, 15] then 1 / 4 else 0) ∧
      chance (fun memory => memory (result 3) = false ∧ ¬ pointsAt 3 1 memory)
        (c.withAngles fun _ => 0).outcomes = 0 := by
  obtain ⟨calls, c, hp, hc, _, _, _, hvalues, hpoints⟩ :=
    balance_finds_coin 3 1 (by decide) (by decide) .initial fun _ => 0
  exact ⟨by decide, by decide, calls, c, hp, hc, hvalues, (hpoints (by decide)).2⟩

end

end CircuitBench.CounterfeitCoin
