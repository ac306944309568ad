import CircuitBench.Toolkit.Call
import CircuitBench.Proofs.Quantum.Program
import Mathlib

/-!
# Reading circuits back from calls

The calls to the toolkit are all that is recorded of a circuit.  `Circuit.record?` takes one call
further, and `Circuit.recorded?` reads a whole list of them: registers by their names and sizes,
operands by their texts, a guard for the gate before it.  A call that has no place in the building
of a circuit leaves nothing to read.

What was built is read back as long as the names of the registers have no bracket:
`recorded?_calls`.
-/

namespace CircuitBench

/-! ## the texts of bits -/

/-- the bit that a text stands for: a register, and an index in brackets -/
def Bit.ofText? (s : String) : Option Bit :=
  let register := s.toList.takeWhile (· ≠ '[')
  let index := s.toList.drop (register.length + 1)
  if index.getLast? = some ']' then
    (String.ofList index.dropLast).toInt?.map (⟨String.ofList register, ·⟩)
  else none

theorem takeWhile_of_notMem {cs rest : List Char} (h : '[' ∉ cs) :
    (cs ++ '[' :: rest).takeWhile (· ≠ '[') = cs := by
  rw [List.takeWhile_append_of_pos, List.takeWhile_cons_of_neg (by simp), List.append_nil]
  intro c hc
  exact decide_eq_true fun hbracket => h (hbracket ▸ hc)

theorem Bit.toList_text (b : Bit) :
    b.text.toList = b.register.toList ++ '[' :: ((toString b.index).toList ++ [']']) := by
  rw [Bit.text, String.toList_append, String.toList_append, String.toList_append]
  simp

theorem Bit.ofText?_text {b : Bit} (h : '[' ∉ b.register.toList) : Bit.ofText? b.text = some b := by
  have hregister : b.text.toList.takeWhile (· ≠ '[') = b.register.toList := by
    rw [toList_text, takeWhile_of_notMem h]
  have hindex : b.text.toList.drop (b.register.toList.length + 1)
      = (toString b.index).toList ++ [']'] := by
    rw [toList_text, ← List.drop_drop, List.drop_left]
    rfl
  rw [ofText?]
  simp only [hregister, hindex, List.getLast?_concat, if_true, List.dropLast_concat,
    String.ofList_toList, Int.toString_eq_repr, Int.toInt?_repr, Option.map_some]

/-- the name of a register is the text of no bit -/
theorem Bit.ofText?_of_notMem {s : String} (h : '[' ∉ s.toList) : Bit.ofText? s = none := by
  have hregister : s.toList.takeWhile (· ≠ '[') = s.toList := by
    rw [List.takeWhile_eq_self_iff]
    intro c hc
    exact decide_eq_true fun hbracket => h (hbracket ▸ hc)
  rw [ofText?, hregister, List.drop_eq_nil_of_le (Nat.le_succ _)]
  rfl

/-! ## one call -/

namespace Circuit

def blank : Circuit Number := ⟨[], [], []⟩

def add (c : Circuit Number) (i : Instruction Number) : Circuit Number :=
  { c with body := c.body ++ [i] }

/-- the circuit with a guard for its last gate -/
def guardLast? (c : Circuit Number) (guard : Guard) : Option (Circuit Number) :=
  match c.body.getLast? with
  | some (.gate g none) => some { c with body := c.body.dropLast ++ [.gate g (some guard)] }
  | _ => none

/-- a measurement of a bit, or of a whole register -/
def measurement? (source target : String) : Option (Instruction Number) :=
  match Bit.ofText? source, Bit.ofText? target with
  | some source, some target => some (.measure source target)
  | none, none => some (.measureAll source target)
  | _, _ => none

/-- the circuit after one more call -/
def record? (c : Circuit Number) : Call → Option (Circuit Number)
  | .program => some blank
  | .quantumRegister name (.value size) => some { c with quantum := c.quantum ++ [⟨name, size⟩] }
  | .classicalRegister name (.value size) =>
    some { c with classical := c.classical ++ [⟨name, size⟩] }
  | .createCircuit _ => some c
  | .circuit registers =>
    if registers = (c.quantum ++ c.classical).map (·.name) then some c else none
  | .gate g => (g.traverse Bit.ofText?).map fun g => c.add (.gate g none)
  | .guard g => c.guardLast? g
  | .barrier register => some (c.add (.barrier register))
  | .measure source target => (measurement? source target).map c.add
  | _ => none

def continued? (c : Circuit Number) (calls : List Call) : Option (Circuit Number) :=
  calls.foldlM record? c

def recorded? (calls : List Call) : Option (Circuit Number) := blank.continued? calls

theorem continued?_nil (c : Circuit Number) : c.continued? [] = some c := rfl

theorem continued?_cons {c d : Circuit Number} {call : Call} (h : c.record? call = some d)
    (calls : List Call) : c.continued? (call :: calls) = d.continued? calls := by
  rw [continued?, List.foldlM_cons, h]
  rfl

theorem continued?_append {c d : Circuit Number} {as bs : List Call}
    (h : c.continued? as = some d) : c.continued? (as ++ bs) = d.continued? bs := by
  rw [continued?] at h ⊢
  rw [List.foldlM_append, h]
  rfl

end Circuit

/-! ## one instruction -/

/-- the operands can be told from their texts -/
def Instruction.Legible {θ : Type} : Instruction θ → Prop
  | .gate g _ => ∀ q ∈ g.operands, '[' ∉ q.register.toList
  | .barrier _ => True
  | .measure source target => '[' ∉ source.register.toList ∧ '[' ∉ target.register.toList
  | .measureAll source target => '[' ∉ source.toList ∧ '[' ∉ target.toList

@[simp] theorem Query.bracket_notMem_qubit (i : Int) : '[' ∉ (qubit i).register.toList := by
  show '[' ∉ "qr".toList
  decide

@[simp] theorem Query.bracket_notMem_result (i : Int) : '[' ∉ (result i).register.toList := by
  show '[' ∉ "cr".toList
  decide

theorem Gate.traverse_text {θ : Type} {g : Gate θ Bit}
    (h : ∀ q ∈ g.operands, '[' ∉ q.register.toList) :
    (g.map Bit.text).traverse Bit.ofText? = some g := by
  cases g <;> simp_all [Gate.map, Gate.traverse, Gate.operands, Bit.ofText?_text]

namespace Circuit

theorem continued?_instruction (c : Circuit Number) {i : Instruction Number} (h : i.Legible) :
    c.continued? i.calls = some (c.add i) := by
  cases i with
  | gate g guard =>
    have hgate : c.record? (.gate (g.map Bit.text)) = some (c.add (.gate g none)) := by
      rw [record?, Gate.traverse_text h]
      rfl
    cases guard with
    | none => exact continued?_cons hgate []
    | some guard =>
      have hguard : (c.add (.gate g none)).record? (.guard guard)
          = some (c.add (.gate g (some guard))) := by
        simp [record?, guardLast?, add]
      exact (continued?_cons hgate _).trans (continued?_cons hguard [])
  | barrier register => exact continued?_cons rfl []
  | measure source target =>
    have hmeasure : measurement? source.text target.text = some (.measure source target) := by
      rw [measurement?, Bit.ofText?_text h.1, Bit.ofText?_text h.2]
    refine continued?_cons ?_ []
    rw [record?, hmeasure]
    rfl
  | measureAll source target =>
    have hmeasure : measurement? source target = some (.measureAll source target) := by
      rw [measurement?, Bit.ofText?_of_notMem h.1, Bit.ofText?_of_notMem h.2]
    refine continued?_cons ?_ []
    rw [record?, hmeasure]
    rfl

/-! ## whole circuits -/

theorem continued?_instructions (c : Circuit Number) {is : List (Instruction Number)}
    (h : ∀ i ∈ is, i.Legible) :
    c.continued? (is.flatMap Instruction.calls) = some { c with body := c.body ++ is } := by
  induction is generalizing c with
  | nil => rw [List.flatMap_nil, continued?_nil, List.append_nil]
  | cons i is ih =>
    rw [List.flatMap_cons, continued?_append (c.continued?_instruction (h i List.mem_cons_self)),
      ih _ fun j hj => h j (List.mem_cons_of_mem i hj), add, List.append_assoc,
      List.singleton_append]

theorem continued?_quantum (c : Circuit Number) (rs : List Register) :
    c.continued? (rs.map Register.quantumCall) = some { c with quantum := c.quantum ++ rs } := by
  induction rs generalizing c with
  | nil => rw [List.map_nil, continued?_nil, List.append_nil]
  | cons r rs ih =>
    rw [List.map_cons, Register.quantumCall, continued?_cons rfl, ih, List.append_assoc,
      List.singleton_append]

theorem continued?_classical (c : Circuit Number) (rs : List Register) :
    c.continued? (rs.map Register.classicalCall)
      = some { c with classical := c.classical ++ rs } := by
  induction rs generalizing c with
  | nil => rw [List.map_nil, continued?_nil, List.append_nil]
  | cons r rs ih =>
    rw [List.map_cons, Register.classicalCall, continued?_cons rfl, ih, List.append_assoc,
      List.singleton_append]

theorem recorded?_opening (quantum classical : List Register) (name : String) :
    recorded? (openingCalls quantum classical name) = some ⟨quantum, classical, []⟩ := by
  have hprogram : blank.continued? [.program] = some blank := rfl
  have hcreate : (⟨quantum, classical, []⟩ : Circuit Number).continued?
      [.createCircuit name, .circuit ((quantum ++ classical).map (·.name))]
      = some ⟨quantum, classical, []⟩ := by
    simp [continued?, record?]
  rw [recorded?, openingCalls, ← List.singleton_append, List.append_assoc, List.append_assoc,
    continued?_append hprogram, continued?_append (continued?_quantum _ _),
    continued?_append (continued?_classical _ _)]
  exact hcreate

/-- the calls that build a circuit tell which one it is -/
theorem recorded?_calls (c : Circuit Number) (name : String) (h : ∀ i ∈ c.body, i.Legible) :
    recorded? (c.calls name) = some c := by
  have hopening := recorded?_opening c.quantum c.classical name
  rw [recorded?] at hopening ⊢
  rw [calls, continued?_append hopening, bodyCalls, continued?_instructions _ h, List.nil_append]

end Circuit

end CircuitBench
