import CircuitBench.Generate.HiddenString
import CircuitBench.Proofs.Quantum.LastWire
import CircuitBench.Proofs.Session
import CircuitBench.Proofs.Toolkit.Recording

/-!
# One query finds the hidden string

The circuit of the hidden string keeps product states.  The query wires are turned into the sum of
their values, the oracle changes the sign of those that the string marks, and turning them back
gives the bits of the string: `run_query`.  What is measured is the string, for certain.  The
circuit that the calls to the toolkit have recorded is this one: `one_query_recovers_string`.
-/

namespace CircuitBench.HiddenString

open Quantum Query Matrix Complex

noncomputable section

/-! ## the bits of the string -/

/-- the bit at the `i`-th place from the end of the string; beyond its beginning it is zero -/
def hiddenBit (s : String) (i : Nat) : Bool :=
  decide (i < s.length ∧ s.toList[s.length - 1 - i]? = some '1')

theorem hiddenBit_eq (s : String) (i : Nat) :
    hiddenBit s i = decide (s.toList.reverse[i]? = some '1') := by
  by_cases h : i < s.length
  · have hi : i < s.toList.length := by rwa [String.length_toList]
    rw [hiddenBit, List.getElem?_reverse hi, String.length_toList]
    simp [h]
  · have hi : s.toList.reverse.length ≤ i := by
      rw [List.length_reverse, String.length_toList]
      omega
    rw [hiddenBit, List.getElem?_eq_none hi]
    simp [h]

theorem mem_marked_iff (s : String) (i : Int) :
    i ∈ marked s ↔ 0 ≤ i ∧ hiddenBit s i.toNat = true := by
  rw [hiddenBit_eq, decide_eq_true_iff]
  simp only [marked, List.mem_map, List.mem_filter, List.mem_zipIdx_iff_getElem?, decide_eq_true_eq]
  constructor
  · rintro ⟨⟨c, k⟩, ⟨hk, hc⟩, rfl⟩
    simp only at hk hc
    subst hc
    exact ⟨Int.natCast_nonneg k, hk⟩
  · rintro ⟨h0, hi⟩
    exact ⟨('1', i.toNat), ⟨hi, rfl⟩, Int.toNat_of_nonneg h0⟩

theorem marked_sorted (s : String) : (marked s).Pairwise (· < ·) := by
  have hz : (s.toList.reverse.zipIdx.map Prod.snd).Pairwise (· < ·) := by
    rw [List.zipIdx_map_snd]
    exact List.pairwise_lt_range'
  have hf := (List.filter_sublist (p := fun p : Char × Nat => decide (p.1 = '1'))
    (l := s.toList.reverse.zipIdx)).map Prod.snd
  have hs := (hz.sublist hf).map Int.ofNat fun i j hij => Int.ofNat_lt.2 hij
  rw [List.map_map] at hs
  exact hs

theorem marked_nodup (s : String) : (marked s).Nodup := (marked_sorted s).imp ne_of_lt

/-- the marked wires are query wires if the string is not too long -/
theorem mem_indices_of_mem_marked {s : String} {last : Int} (hs : s.length ≤ last) :
    ∀ i ∈ marked s, i ∈ indices last := by
  intro i hi
  obtain ⟨h0, hb⟩ := (mem_marked_iff s i).1 hi
  rw [hiddenBit, decide_eq_true_iff] at hb
  rw [mem_indices]
  omega

/-! ## the parts of the circuit -/

section
variable {θ : Type}

/-- all instructions but the measurements -/
def queries (n : Int) (s : String) : List (Instruction θ) :=
  spread n ++ [gate (.x (qubit (n - 1))), gate (.h (qubit (n - 1))), .barrier none] ++
    oracle n s ++ [.barrier none] ++ spread n

def readings (n : Int) : List (Instruction θ) :=
  (indices (n - 1)).map fun i => .measure (qubit i) (result i)

theorem body_eq (n : Int) (s : String) : body (θ := θ) n s = queries n s ++ readings n := rfl

theorem circuit_withAngles {θ' : Type} (f : θ → θ') (n : Int) (s : String) :
    (circuit n s).withAngles f = circuit n s := by
  simp [circuit, Circuit.withAngles, body, spread, oracle, gate, Instruction.withAngles,
    Gate.withAngles, Function.comp_def]

theorem forall_mem_body {n : Int} {s : String} {P : Instruction θ → Prop} :
    (∀ i ∈ body n s, P i) ↔
      (∀ i ∈ indices (n - 1), P (gate (.h (qubit i)))) ∧
      (P (gate (.x (qubit (n - 1)))) ∧ P (gate (.h (qubit (n - 1)))) ∧ P (.barrier none)) ∧
      (∀ i ∈ marked s, P (gate (.cx (qubit i) (qubit (n - 1))))) ∧
      ∀ i ∈ indices (n - 1), P (.measure (qubit i) (result i)) := by
  simp only [body, spread, oracle, List.forall_mem_append, List.forall_mem_map,
    List.forall_mem_cons, List.not_mem_nil, IsEmpty.forall_iff, implies_true, and_true]
  tauto

theorem legible_body (n : Int) (s : String) : ∀ i ∈ body (θ := θ) n s, i.Legible := by
  refine forall_mem_body.2 ⟨?_, ⟨?_, ?_, trivial⟩, ?_, ?_⟩ <;>
    simp [Instruction.Legible, gate, Gate.operands]

theorem isMeasurement_queries (n : Int) (s : String) :
    ∀ i ∈ queries (θ := θ) n s, i.isMeasurement = false := by
  simp only [queries, spread, oracle, gate, List.mem_append, List.mem_map, List.mem_cons,
    List.not_mem_nil, or_false]
  rintro i ((((⟨_, _, rfl⟩ | rfl | rfl | rfl) | ⟨_, _, rfl⟩) | rfl) | ⟨_, _, rfl⟩) <;> rfl

theorem unmeasured_circuit (n : Int) (s : String) :
    (circuit (θ := θ) n s).unmeasured = queries n s := by
  have hr : (readings (θ := θ) n).takeWhile (fun i => !i.isMeasurement) = [] := by
    cases h : indices (n - 1) <;> simp [readings, h, Instruction.isMeasurement]
  rw [Circuit.unmeasured, circuit, body_eq, List.takeWhile_append_of_pos, hr, List.append_nil]
  intro i hi
  rw [isMeasurement_queries n s i hi, Bool.not_false]

end

/-! ## what the parts do -/

section
variable {last : Int} {classical : List Register}

theorem run_spread (memory : Bit → Bool) (a : Bool → ℂ) (q : Int → Bool → ℂ) :
    run [upTo "qr" last] classical (spread (last + 1)) ⟨memory, tensor (apart a q)⟩
      = [⟨memory, tensor (apart a fun i => hadamard *ᵥ q i)⟩] := by
  have hs : spread (last + 1) = (turns "qr" last).map (lifted none) := by
    rw [turns_lifted, spread, Int.add_sub_cancel]
    rfl
  rw [hs, run_gates _ (turns_operands "qr" last) _ rfl, turns_apart]

/-- the answer wire is made ready for the oracle -/
theorem run_answer (hl : 0 ≤ last) (memory : Bit → Bool) (q : Int → Bool → ℂ) :
    run [upTo "qr" last] classical
        [gate (.x (qubit last)), gate (.h (qubit last)), .barrier none]
        ⟨memory, tensor (apart (ket false) q)⟩
      = [⟨memory, tensor (apart (slanted true) q)⟩] := by
  have hi : [gate (.x (qubit last)), gate (.h (qubit last)), .barrier none]
      = (readies "qr" hl).map (lifted none) ++ [.barrier none] := rfl
  rw [hi, run_append_of_eq (run_gates _ (readies_operands "qr" hl) _ rfl), run_barrier, run,
    readies_apart]

/-- the oracle changes the sign of the marked wires -/
theorem run_oracle (hl : 0 ≤ last) {s : String} (hs : s.length ≤ last) (memory : Bit → Bool) :
    run [upTo "qr" last] classical (oracle (last + 1) s)
        ⟨memory, tensor (apart (slanted true) fun _ => slanted false)⟩
      = [⟨memory, tensor (apart (slanted true) fun i => slanted (decide (i ∈ marked s)))⟩] := by
  have hm := mem_indices_of_mem_marked hs
  have ho : oracle (last + 1) s = (collects "qr" hl (marked s) hm).map (lifted none) := by
    rw [collects_lifted, oracle, Int.add_sub_cancel]
    rfl
  rw [ho, run_gates _ (collects_operands "qr" hl hm) _ rfl]
  have hk := collects_apart "qr" hl hm (marked_nodup s) true fun _ => false
  simp only [Bool.false_bne, Bool.and_true] at hk
  rw [hk]

/-- before the measurements the query wires hold the bits of the string -/
theorem run_query (hl : 0 ≤ last) {s : String} (hs : s.length ≤ last) :
    run [upTo "qr" last] classical (queries (last + 1) s) (.initial _)
      = [⟨fun _ => false,
          tensor fun w => if w.1.index = last then slanted true
            else ket (hiddenBit s w.1.index.toNat)⟩] := by
  have hq : last + 1 - 1 = last := Int.add_sub_cancel ..
  rw [queries, hq, List.append_assoc, List.append_assoc, List.append_assoc, initial_apart,
    run_append_of_eq (run_spread _ _ _), hadamard_mulVec_ket,
    run_append_of_eq (run_answer hl _ _), run_append_of_eq (run_oracle hl hs _),
    List.singleton_append, run_barrier, run_spread]
  congr 3
  funext w
  rw [apart]
  split
  · rfl
  · have hw := (inside_singleton _ _).1 w.2
    rw [hadamard_mulVec_slanted]
    congr 1
    rw [Bool.eq_iff_iff, decide_eq_true_iff, mem_marked_iff]
    exact and_iff_right hw.2.1

/-! ## what is measured -/

/-- the classical bits at the end -/
def found (last : Int) (s : String) : Bit → Bool :=
  inscribed "cr" (indices last) (fun i => hiddenBit s i.toNat) fun _ => false

theorem found_result (s : String) {i : Nat} (hi : i < last.toNat) :
    found last s (result i) = hiddenBit s i := by
  have hm : (i : Int) ∈ indices last := by
    rw [mem_indices]
    omega
  exact if_pos ⟨rfl, hm⟩

theorem registerValue_found (s : String) :
    registerValue ⟨"cr", last⟩ (found last s)
      = ((List.range last.toNat).map fun i => if hiddenBit s i then 2 ^ i else 0).sum := by
  rw [registerValue]
  congr 1
  apply List.map_congr_left
  intro i hi
  have h := found_result s (List.mem_range.1 hi)
  rw [result] at h
  rw [h]

/-- a bit of the string is the character at its place -/
theorem bit_char {s : String} (hb : s.toList.all isBinary = true) {i : Nat} {c : Char}
    (hc : s.toList.reverse[i]? = some c) : (if hiddenBit s i then '1' else '0') = c := by
  have hm : c ∈ s.toList := List.mem_reverse.1 (List.mem_of_getElem? hc)
  have h01 : c = '0' ∨ c = '1' := by
    simpa [isBinary] using List.all_eq_true.1 hb c hm
  rw [hiddenBit_eq, hc]
  rcases h01 with rfl | rfl
  · rfl
  · rfl

/-- the bits of the string, first place last, are the string filled up with zeros in front -/
theorem map_bits_eq_leftpad {s : String} {k : Nat} (hs : s.length ≤ k)
    (hb : s.toList.all isBinary = true) :
    ((List.range k).reverse.map fun i => if hiddenBit s i then '1' else '0')
      = s.toList.leftpad k '0' := by
  rw [List.map_reverse, List.reverse_eq_iff, List.leftpad, List.reverse_append,
    List.reverse_replicate]
  apply List.ext_getElem?
  intro i
  have hl : s.toList.reverse.length = s.length := by rw [List.length_reverse, String.length_toList]
  by_cases hi : i < s.length
  · have hir : i < s.toList.reverse.length := by omega
    have hc := List.getElem?_eq_getElem hir
    rw [List.getElem?_append_left hir, List.getElem?_map, List.getElem?_range (by omega),
      Option.map_some, bit_char hb hc, hc]
  · have h0 : hiddenBit s i = false := by
      rw [hiddenBit, decide_eq_false_iff_not]
      exact fun h => hi h.1
    rw [List.getElem?_append_right (by omega), List.getElem?_map, List.getElem?_replicate, hl,
      String.length_toList]
    by_cases hk : i < k
    · rw [List.getElem?_range hk, if_pos (by omega)]
      simp [h0]
    · rw [List.getElem?_eq_none (by rw [List.length_range]; omega), if_neg (by omega)]
      rfl

theorem registerText_found {s : String} (hs : s.length ≤ last)
    (hb : s.toList.all isBinary = true) :
    registerText ⟨"cr", last⟩ (found last s) = String.ofList (s.toList.leftpad last.toNat '0') := by
  rw [registerText, ← map_bits_eq_leftpad (by omega) hb]
  congr 1
  apply List.map_congr_left
  intro i hi
  have h := found_result s (List.mem_range.1 (List.mem_reverse.1 hi))
  rw [result] at h
  rw [h]

/-- the classical bits end up as `found` and as nothing else -/
theorem chance_outcomes (hl : 0 ≤ last) {s : String} (hs : s.length ≤ last)
    (P : (Bit → Bool) → Prop) [DecidablePred P] :
    chance P (circuit (last + 1) s).outcomes = if P (found last s) then 1 else 0 := by
  have hr : readings (last + 1)
      = (indices last).map fun i => (.measure ⟨"qr", i⟩ ⟨"cr", i⟩ : Instruction ℝ) := by
    rw [readings, Int.add_sub_cancel]
    rfl
  have hin : ∀ i ∈ indices last, Bit.inside [⟨"cr", last + 1 - 1⟩] ⟨"cr", i⟩ := by
    intro i hi
    rw [inside_singleton, Int.add_sub_cancel]
    exact ⟨rfl, (mem_indices _ _).1 hi⟩
  rw [Circuit.outcomes]
  show chance P (run [upTo "qr" last] [⟨"cr", last + 1 - 1⟩] (body (last + 1) s)
    (.initial [upTo "qr" last])) = _
  rw [body_eq, run_append_of_eq (run_query hl hs), hr, chance_run_reads P hin]
  exact readChance_apart P "cr" (sum_normSq_slanted true) (fun i => hiddenBit s i.toNat) _

end

/-- **One query recovers the string.**  For a string that can be hidden, the calls record a circuit
that has the bits of the string on its query wires before it measures, and a negative sign on its
answer wire; what it measures is the string with zeros in front, with probability one. -/
theorem one_query_recovers_string (n : Int) (s : String) (hn : 1 ≤ n)
    (hs : check s (n - 1) = .ok ()) (σ : Session) (f : Number → ℝ) :
    ∃ (calls : List Call) (c : Circuit Number),
      (Generate.HiddenString.build n s).perform σ = (.ok (), σ.say (calls.map .call)) ∧
      Circuit.recorded? calls = some c ∧
      c.quantum = [⟨"qr", n⟩] ∧ c.classical = [⟨"cr", n - 1⟩] ∧
      run [⟨"qr", n⟩] [⟨"cr", n - 1⟩] (c.withAngles f).unmeasured (.initial _)
        = [⟨fun _ => false,
            tensor fun w => if w.1.index = n - 1 then slanted true
              else ket (hiddenBit s w.1.index.toNat)⟩] ∧
      ∃ memory : Bit → Bool,
        (∀ (P : (Bit → Bool) → Prop) [DecidablePred P],
          chance P (c.withAngles f).outcomes = if P memory then 1 else 0) ∧
        (∀ i : Nat, i < n - 1 → memory (result i) = hiddenBit s i) ∧
        registerValue ⟨"cr", n - 1⟩ memory
          = ((List.range (n - 1).toNat).map fun i => if hiddenBit s i then 2 ^ i else 0).sum ∧
        registerText ⟨"cr", n - 1⟩ memory = String.ofList (s.toList.leftpad (n - 1).toNat '0') := by
  obtain ⟨last, rfl⟩ : ∃ last, n = last + 1 := ⟨n - 1, by omega⟩
  obtain ⟨hlen, hbin⟩ := (check_eq_ok_iff s _).1 hs
  have hl : 0 ≤ last := by omega
  have hq : last + 1 - 1 = last := Int.add_sub_cancel ..
  refine ⟨_, circuit (last + 1) s, Job.perform_callAll _ σ,
    Circuit.recorded?_calls _ name (legible_body _ s), rfl, rfl, ?_⟩
  rw [circuit_withAngles, unmeasured_circuit]
  rw [hq] at hlen ⊢
  refine ⟨run_query hl hlen, found last s, ?_, ?_, registerValue_found s,
    registerText_found hlen hbin⟩
  · intro P _
    exact chance_outcomes hl hlen P
  · intro i hi
    exact found_result s (by omega)

/-- a string of two bits in a query of three -/
theorem one_query_recovers_short_string :
    1 ≤ (4 : Int) ∧ check "10" (4 - 1) = .ok () ∧
      ∃ (calls : List Call) (c : Circuit Number) (memory : Bit → Bool),
        (Generate.HiddenString.build 4 "10").perform .initial
          = (.ok (), Session.initial.say (calls.map .call)) ∧
        Circuit.recorded? calls = some c ∧
        (∀ (P : (Bit → Bool) → Prop) [DecidablePred P],
          chance P (c.withAngles fun _ => 0).outcomes = if P memory then 1 else 0) ∧
        registerText ⟨"cr", 4 - 1⟩ memory = "010" := by
  have hs : check "10" (4 - 1) = .ok () := by decide
  obtain ⟨calls, c, hp, hc, _, _, _, memory, hP, _, _, ht⟩ :=
    one_query_recovers_string 4 "10" (by decide) hs .initial fun _ => 0
  exact ⟨by decide, hs, calls, c, memory, hp, hc, hP, ht.trans (by decide)⟩

end

end CircuitBench.HiddenString
