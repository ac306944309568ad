import CircuitBench.Proofs.CounterfeitCoin
import CircuitBench.Proofs.Generate.Delivery
import CircuitBench.Proofs.HiddenString

/-!
# Which generated circuits are well formed

A circuit is well formed if its operands are in range, the operands of each gate are apart and the
guards fit (`Circuit.wellFormed_iff`).  The hidden-string circuit is so for every string that leaves
a qubit for the answer.  Of the circuit for `n` coins the three are asked for one by one:

* operands in range      `0 ≤ n`, `0 ≤ coin` and `coin ≤ n`;
* operands apart         `coin ≠ n`;
* guards that fit        always.

The generator asks for none of them, so whether it writes a well-formed circuit is up to the index
of the coin: `written_circuit_wellFormed_iff`.  An index is taken to be written with all its digits.
-/

namespace CircuitBench

open Query

section
variable {θ : Type}

namespace Instruction

/-- every operand is a bit of its register -/
def InRange (quantum classical : List Register) : Instruction θ → Prop
  | .gate g _ => ∀ q ∈ g.operands, q.inside quantum
  | .barrier _ => True
  | .measure source target => source.inside quantum ∧ target.inside classical
  | .measureAll source target =>
    (∃ r ∈ quantum, r.name = source) ∧ ∃ r ∈ classical, r.name = target

/-- no operand of a gate is another one as well -/
def Apart : Instruction θ → Prop
  | .gate g _ => g.operands.Nodup
  | .barrier _ => True
  | .measure _ _ => True
  | .measureAll _ _ => True

/-- the register of a guard can hold its value -/
def GuardFits (classical : List Register) : Instruction θ → Prop
  | .gate _ guard =>
    ∀ c ∈ guard, ∃ r ∈ classical, r.name = c.register ∧ c.value < 2 ^ r.size.toNat
  | .barrier _ => True
  | .measure _ _ => True
  | .measureAll _ _ => True

theorem wellFormed_iff (quantum classical : List Register) (i : Instruction θ) :
    i.WellFormed quantum classical ↔
      i.InRange quantum classical ∧ i.Apart ∧ i.GuardFits classical := by
  cases i with
  | gate g guard => exact Iff.rfl
  | barrier register => simp [WellFormed, InRange, Apart, GuardFits]
  | measure source target => simp [WellFormed, InRange, Apart, GuardFits]
  | measureAll source target => simp [WellFormed, InRange, Apart, GuardFits]

end Instruction

namespace Circuit

def InRange (c : Circuit θ) : Prop := ∀ i ∈ c.body, i.InRange c.quantum c.classical

def Apart (c : Circuit θ) : Prop := ∀ i ∈ c.body, i.Apart

def GuardsFit (c : Circuit θ) : Prop := ∀ i ∈ c.body, i.GuardFits c.classical

theorem wellFormed_iff (c : Circuit θ) :
    c.WellFormed ↔ c.InRange ∧ c.Apart ∧ c.GuardsFit := by
  unfold WellFormed InRange Apart GuardsFit
  simp only [Instruction.wellFormed_iff, forall_and]

end Circuit

theorem inside_own {name : String} {size i : Int} :
    Bit.inside [⟨name, size⟩] ⟨name, i⟩ ↔ 0 ≤ i ∧ i < size := by
  rw [Quantum.inside_singleton]
  exact and_iff_right rfl

theorem nodup_bits {name : String} {i j : Int} :
    ([⟨name, i⟩, ⟨name, j⟩] : List Bit).Nodup ↔ i ≠ j := by
  simp

/-! ## the hidden-string circuit -/

namespace HiddenString

variable {n : Int} {s : String}

theorem inRange_circuit (hs : s.length ≤ n - 1) : (circuit n s : Circuit θ).InRange := by
  have hlast : (qubit (n - 1)).inside [⟨"qr", n⟩] := inside_own.2 (by omega)
  have hquery {i : Int} (hi : i ∈ indices (n - 1)) : (qubit i).inside [⟨"qr", n⟩] := by
    rw [mem_indices] at hi
    exact inside_own.2 (by omega)
  refine forall_mem_body.2 ⟨?_, ⟨?_, ?_, trivial⟩, ?_, ?_⟩
  · intro i hi
    exact List.forall_mem_singleton.2 (hquery hi)
  · exact List.forall_mem_singleton.2 hlast
  · exact List.forall_mem_singleton.2 hlast
  · intro i hi
    have hi := hquery (mem_indices_of_mem_marked hs i hi)
    exact List.forall_mem_cons.2 ⟨hi, List.forall_mem_singleton.2 hlast⟩
  · intro i hi
    exact ⟨hquery hi, inside_own.2 ((mem_indices _ _).1 hi)⟩

theorem apart_circuit (hs : s.length ≤ n - 1) : (circuit n s : Circuit θ).Apart := by
  refine forall_mem_body.2 ⟨fun _ _ => List.nodup_singleton _,
    ⟨List.nodup_singleton _, List.nodup_singleton _, trivial⟩, ?_, fun _ _ => trivial⟩
  intro i hi
  have hi := (mem_indices _ _).1 (mem_indices_of_mem_marked hs i hi)
  exact nodup_bits.2 (by omega)

theorem guardsFit_circuit : (circuit n s : Circuit θ).GuardsFit := by
  have hnone (g : Gate θ Bit) : (gate g).GuardFits (circuit n s : Circuit θ).classical := by
    intro c hc
    cases hc
  exact forall_mem_body.2 ⟨fun _ _ => hnone _, ⟨hnone _, hnone _, trivial⟩, fun _ _ => hnone _,
    fun _ _ => trivial⟩

theorem wellFormed_circuit (hs : s.length ≤ n - 1) : (circuit n s : Circuit θ).WellFormed :=
  (Circuit.wellFormed_iff _).2 ⟨inRange_circuit hs, apart_circuit hs, guardsFit_circuit⟩

end HiddenString

/-! ## the counterfeit-coin circuit -/

namespace CounterfeitCoin

variable {n coin : Int}

theorem inRange_circuit_iff :
    (circuit n coin : Circuit θ).InRange ↔ 0 ≤ n ∧ 0 ≤ coin ∧ coin ≤ n := by
  refine forall_mem_body.trans ⟨?_, ?_⟩
  · -- the measurement of the parity and the gate of the balance ask for all of it
    rintro ⟨⟨_, _, hparity⟩, _, ⟨_, hcoin⟩, _⟩
    have hlast := inside_own.1 hparity.1
    have hcoin := inside_own.1 (List.forall_mem_cons.1 hcoin).1
    omega
  · rintro ⟨hn, h0, hcoin⟩
    have hlast : (qubit n).inside [⟨"qr", n + 1⟩] := inside_own.2 (by omega)
    have hfalse : (qubit coin).inside [⟨"qr", n + 1⟩] := inside_own.2 (by omega)
    have hbit {i : Int} (hi : i ∈ indices n) : 0 ≤ i ∧ i < n + 1 := by
      rw [mem_indices] at hi
      omega
    have hsingle (i : Int) (hi : i ∈ indices n) :
        ∀ q ∈ [qubit i], q.inside [⟨"qr", n + 1⟩] :=
      List.forall_mem_singleton.2 (inside_own.2 (hbit hi))
    refine ⟨⟨hsingle, ?_, hlast, inside_own.2 (by omega)⟩, ⟨?_, ?_, hsingle⟩, ⟨trivial, ?_⟩,
      hsingle, ?_⟩
    · intro i hi
      exact List.forall_mem_cons.2
        ⟨inside_own.2 (hbit hi), List.forall_mem_singleton.2 hlast⟩
    · exact List.forall_mem_singleton.2 hlast
    · exact List.forall_mem_singleton.2 hlast
    · exact List.forall_mem_cons.2 ⟨hfalse, List.forall_mem_singleton.2 hlast⟩
    · intro i hi
      exact ⟨inside_own.2 (hbit hi), inside_own.2 (hbit hi)⟩

theorem apart_circuit_iff : (circuit n coin : Circuit θ).Apart ↔ coin ≠ n := by
  refine forall_mem_body.trans ⟨?_, ?_⟩
  · rintro ⟨_, _, ⟨_, hcoin⟩, _⟩
    exact nodup_bits.1 hcoin
  · intro hcoin
    have hsingle (q : Bit) : [q].Nodup := List.nodup_singleton q
    refine ⟨⟨fun _ _ => hsingle _, ?_, trivial⟩, ⟨hsingle _, hsingle _, fun _ _ => hsingle _⟩,
      ⟨trivial, nodup_bits.2 hcoin⟩, fun _ _ => hsingle _, fun _ _ => trivial⟩
    intro i hi
    rw [mem_indices] at hi
    exact nodup_bits.2 (by omega)

/-- the value of an odd query takes all bits of the register but one -/
theorem guardsFit_circuit : (circuit n coin : Circuit θ).GuardsFit := by
  have hfree (g : Gate θ Bit) : (gate g).GuardFits (circuit n coin : Circuit θ).classical := by
    intro c hc
    cases hc
  have heven (g : Gate θ Bit) :
      (whenEven g).GuardFits (circuit n coin : Circuit θ).classical := by
    rintro c ⟨⟩
    exact ⟨_, List.mem_singleton_self _, rfl, Nat.two_pow_pos _⟩
  have hodd (i : Int) (hi : i ∈ indices n) :
      (whenOdd n (.h (qubit i)) : Instruction θ).GuardFits
        (circuit n coin : Circuit θ).classical := by
    rw [mem_indices] at hi
    rintro c ⟨⟩
    exact ⟨_, List.mem_singleton_self _, rfl,
      Nat.pow_lt_pow_right (by decide) (show n.toNat < (n + 1).toNat by omega)⟩
  exact forall_mem_body.2 ⟨⟨fun _ _ => hfree _, fun _ _ => hfree _, trivial⟩,
    ⟨heven _, heven _, hodd⟩, ⟨trivial, heven _⟩, fun _ _ => heven _, fun _ _ => trivial⟩

theorem wellFormed_circuit_iff :
    (circuit n coin : Circuit θ).WellFormed ↔ 0 ≤ coin ∧ coin < n := by
  rw [Circuit.wellFormed_iff, inRange_circuit_iff, apart_circuit_iff,
    and_iff_left guardsFit_circuit]
  omega

end CounterfeitCoin

end

/-! ## what the generator of coin circuits writes -/

namespace Generate.CounterfeitCoin

open CircuitBench.CounterfeitCoin Job

/-- the circuit is built in any case, and then delivered -/
theorem perform_generate (n coin : Int) (output : Option (Given String)) (σ : Session) :
    (generate (.value n) (.value coin) false output).perform σ
      = (deliver name (comments n (.value coin)) false
          (output.getD (.value (defaultName n)))).perform
        (σ.say (((circuit n coin).calls name).map .call)) := rfl

theorem perform_generate_unnamed (n coin : Int) {σ : Session} {place : Place}
    (hw : σ.tree.writable (programPath "cc" (n + 1)) = .ok place) :
    (generate (.value n) (.value coin) false none).perform σ
      = (.ok (), (σ.say (((circuit n coin).calls name ++ [Call.takeText name]).map .call)).write
          place (commented (comments n (.value coin))
            (σ.programs (σ.calls ++ (circuit n coin).calls name) name))) := by
  have hpath : outputPath (defaultName n) = .ok (programPath "cc" (n + 1)) :=
    outputPath_numeral "cc_n" (n + 1)
  rw [perform_generate, Option.getD_none, perform_deliver_built _ _ hpath _ hw]

/-- **When a written coin circuit is well formed.**  A generator that fails writes nothing; one that
ends well has written the text that the toolkit gives for the calls of a circuit, and these calls
record the circuit of its two numbers.  Its guards fit, but its operands are in range
only for an index of zero up to the number of coins, and the last of these makes the balance a
controlled gate from a qubit to itself.  So the circuit is well formed exactly for the indices
before the number of coins. -/
theorem written_circuit_wellFormed_iff (n coin : Int) (output : Option (Given String))
    (σ τ : Session) :
    (∀ fault, (generate (.value n) (.value coin) false output).perform σ = (.error fault, τ) →
        τ.tree = σ.tree) ∧
      ((generate (.value n) (.value coin) false output).perform σ = (.ok (), τ) →
        ∃ given path place, output.getD (.value (defaultName n)) = .value given ∧
          outputPath given = .ok path ∧ σ.tree.writable path = .ok place ∧
          τ.tree = σ.tree.put place (.file (.text (commented (comments n (.value coin))
            (σ.programs (σ.calls ++ (circuit n coin).calls name) name))))) ∧
      Circuit.recorded? ((circuit n coin).calls name) = some (circuit n coin) ∧
      ((circuit n coin : Circuit Number).InRange ↔ 0 ≤ n ∧ 0 ≤ coin ∧ coin ≤ n) ∧
      ((circuit n coin : Circuit Number).Apart ↔ coin ≠ n) ∧
      (circuit n coin : Circuit Number).GuardsFit ∧
      ((circuit n coin : Circuit Number).WellFormed ↔ 0 ≤ coin ∧ coin < n) := by
  refine ⟨?_, ?_, Circuit.recorded?_calls _ name (legible_body n coin), inRange_circuit_iff,
    apart_circuit_iff, guardsFit_circuit, wellFormed_circuit_iff⟩
  · intro fault h
    rw [perform_generate] at h
    obtain ⟨_, _, htree⟩ | ⟨hok, _⟩ := perform_deliver_inv h
    · exact htree
    · cases hok
  · intro h
    rw [perform_generate] at h
    obtain ⟨_, herror, _⟩ | ⟨_, hwritten⟩ := perform_deliver_inv h
    · cases herror
    · rwa [Session.calls_say_calls] at hwritten

theorem writable_four_qubits :
    Session.initial.tree.writable (programPath "cc" (3 + 1)) = .ok ["cc_n4.qasm"] := by
  decide +kernel

/-- the last of three coins -/
theorem last_coin_circuit_is_wellFormed :
    ∃ τ, (generate (.value 3) (.value 2) false none).perform Session.initial = (.ok (), τ) ∧
      (∃ given path place, (none : Option (Given String)).getD (.value (defaultName 3))
          = .value given ∧ outputPath given = .ok path ∧
        Session.initial.tree.writable path = .ok place ∧
        τ.tree = Session.initial.tree.put place (.file (.text (commented (comments 3 (.value 2))
          (programText ((circuit 3 2).calls name)))))) ∧
      (circuit 3 2 : Circuit Number).WellFormed := by
  obtain ⟨_, hwritten, _, _, _, _, hformed⟩ := written_circuit_wellFormed_iff 3 2 none
    Session.initial ((generate (.value 3) (.value 2) false none).perform Session.initial).2
  have hp := perform_generate_unnamed 3 2 writable_four_qubits
  rw [hp] at hwritten
  exact ⟨_, hp, hwritten rfl, hformed.2 (by decide)⟩

/-- the index three names no coin of three, but its circuit is written: the balance weighs the last
qubit against itself -/
theorem index_three_of_three_coins_is_written :
    ∃ τ, (generate (.value 3) (.value 3) false none).perform Session.initial = (.ok (), τ) ∧
      τ.tree = .dir [("cc_n4.qasm", .file (.text (commented (comments 3 (.value 3))
        (programText ((circuit 3 3).calls name)))))] ∧
      whenEven (.cx (qubit 3) (qubit 3)) ∈ (circuit 3 3 : Circuit Number).body ∧
      ¬ (circuit 3 3 : Circuit Number).WellFormed := by
  refine ⟨_, perform_generate_unnamed 3 3 writable_four_qubits, rfl, ?_, ?_⟩
  · exact List.mem_append_left _ (List.mem_append_right _ (List.mem_cons_of_mem _
      List.mem_cons_self))
  · rw [wellFormed_circuit_iff]
    decide

end Generate.CounterfeitCoin

end CircuitBench
