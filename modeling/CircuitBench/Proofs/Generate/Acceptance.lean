import CircuitBench.Proofs.Generate.WellFormed

/-!
# Which strings are accepted

The generator of hidden-string circuits takes a string if it has bits only and leaves a qubit for
the answer (`Hideable`).  The circuit is then built and written to the file of its number of qubits,
and nothing else is done (`Delivered`); any other string leaves the session as it is.  The circuit
asks its one question between its two barriers (`AsksBetweenBarriers`).

A string that is drawn has bits only, and as many of them as there are qubits but one
(`perform_drawString`).  So it is taken as long as there is a qubit at all.
-/

namespace CircuitBench

/-- the numbers that the next draws give -/
def Session.upcoming : Nat → Session → List Number
  | 0, _ => []
  | count + 1, σ =>
    match Job.drawReal.perform σ with
    | (.ok x, τ) => x :: upcoming count τ
    | (.error _, _) => []

theorem Session.length_upcoming (count : Nat) (σ : Session) :
    (σ.upcoming count).length = count := by
  induction count generalizing σ with
  | zero => rfl
  | succ count ih =>
    obtain ⟨x, random, draws, hx⟩ := Job.perform_drawReal σ
    rw [upcoming, hx]
    show ((σ.redraw random draws).upcoming count).length + 1 = count + 1
    rw [ih]

namespace HiddenString

open Query

/-- the string has bits only and is shorter than the number of qubits -/
def Hideable (n : Int) (s : String) : Prop :=
  (∀ c ∈ s.toList, c = '0' ∨ c = '1') ∧ s.length ≤ n - 1

theorem check_eq_ok_iff_hideable {n : Int} {s : String} :
    check s (n - 1) = .ok () ↔ Hideable n s := by
  have hbits : s.toList.all isBinary = true ↔ ∀ c ∈ s.toList, c = '0' ∨ c = '1' := by
    simp [isBinary]
  rw [check_eq_ok_iff, hbits, Hideable, and_comm]

instance (n : Int) (s : String) : Decidable (Hideable n s) :=
  decidable_of_iff _ check_eq_ok_iff_hideable

/-! ## where the question is asked -/

section
variable {θ : Type}

def isLocal : Instruction θ → Bool
  | .gate (.cx _ _) _ => false
  | .barrier _ => false
  | _ => true

/-- the controlled gates of the circuit stand between its two barriers, from the places of the ones
of the string, the first place first, to the last qubit -/
def AsksBetweenBarriers (n : Int) (s : String) (c : Circuit θ) : Prop :=
  ∃ (before after : List (Instruction θ)) (places : List Int),
    c.body = before ++ [.barrier none] ++
      places.map (fun i => .gate (.cx (qubit i) (qubit (n - 1))) none) ++ [.barrier none] ++ after ∧
    (∀ i ∈ before ++ after, isLocal i = true) ∧ places.Pairwise (· < ·) ∧
    ∀ i : Int, i ∈ places ↔ 0 ≤ i ∧ i < s.length ∧ s.toList[(s.length - 1 - i).toNat]? = some '1'

theorem mem_marked_iff_getElem? (s : String) (i : Int) :
    i ∈ marked s ↔ 0 ≤ i ∧ i < s.length ∧ s.toList[(s.length - 1 - i).toNat]? = some '1' := by
  rw [mem_marked_iff, hiddenBit, decide_eq_true_iff]
  apply and_congr_right
  intro h0
  have hplace : ((s.length : Int) - 1 - i).toNat = s.length - 1 - i.toNat := by omega
  have hlt : i.toNat < s.length ↔ i < s.length := by omega
  rw [hplace, hlt]

theorem asksBetweenBarriers_circuit (n : Int) (s : String) :
    AsksBetweenBarriers n s (circuit n s : Circuit θ) := by
  refine ⟨spread n ++ [gate (.x (qubit (n - 1))), gate (.h (qubit (n - 1)))],
    spread n ++ readings n, marked s, ?_, ?_, marked_sorted s, mem_marked_iff_getElem? s⟩
  · simp [circuit, body, oracle, gate, readings]
  · have hspread : ∀ i ∈ spread (θ := θ) n, isLocal i = true := by
      intro i hi
      obtain ⟨k, _, rfl⟩ := List.mem_map.1 hi
      rfl
    have hread : ∀ i ∈ readings (θ := θ) n, isLocal i = true := by
      intro i hi
      obtain ⟨k, _, rfl⟩ := List.mem_map.1 hi
      rfl
    have hready : ∀ i ∈ [gate (.x (qubit (n - 1))), gate (θ := θ) (.h (qubit (n - 1)))],
        isLocal i = true :=
      List.forall_mem_cons.2 ⟨rfl, List.forall_mem_singleton.2 rfl⟩
    simp only [List.forall_mem_append]
    exact ⟨⟨hspread, hready⟩, hspread, hread⟩

end

end HiddenString

namespace Generate.HiddenString

open CircuitBench.HiddenString Job

/-! ## strings that are drawn -/

/-- the bits that the next draws give, each a one with the given probability -/
def upcomingBits (p : Number) (count : Nat) (σ : Session) : List Char :=
  (σ.upcoming count).map fun x => if x.le p then '1' else '0'

theorem perform_drawBits (p : Number) (count : Nat) (σ : Session) :
    ∃ random draws, (drawBits (.value p) count).perform σ
      = (.ok (upcomingBits p count σ), σ.redraw random draws) := by
  induction count generalizing σ with
  | zero => exact ⟨σ.random, σ.draws, rfl⟩
  | succ count ih =>
    obtain ⟨x, random, draws, hx⟩ := perform_drawReal σ
    obtain ⟨random', draws', hrest⟩ := ih (σ.redraw random draws)
    refine ⟨random', draws', ?_⟩
    have hbits : upcomingBits p (count + 1) σ
        = (if x.le p then '1' else '0') :: upcomingBits p count (σ.redraw random draws) := by
      rw [upcomingBits, Session.upcoming, hx]
      rfl
    rw [drawBits, perform_bind_ok hx, perform_bind_ok (perform_given _ _ _),
      perform_bind_ok hrest, hbits]
    rfl

def upcomingString (p : Number) (n : Int) (σ : Session) : String :=
  String.ofList (upcomingBits p (n - 1).toNat σ)

theorem perform_drawString (p : Number) (n : Int) (σ : Session) :
    ∃ random draws, (drawString (n - 1) (.value p)).perform σ
      = (.ok (upcomingString p n σ), σ.redraw random draws) := by
  obtain ⟨random, draws, hbits⟩ := perform_drawBits p (n - 1).toNat σ
  refine ⟨random, draws, ?_⟩
  rw [drawString, perform_bind_ok hbits]
  rfl

theorem length_upcomingString (p : Number) (n : Int) (σ : Session) :
    (upcomingString p n σ).length = (n - 1).toNat := by
  rw [upcomingString, String.length_ofList, upcomingBits, List.length_map, Session.length_upcoming]

theorem hideable_upcomingString {n : Int} (hn : 1 ≤ n) (p : Number) (σ : Session) :
    Hideable n (upcomingString p n σ) := by
  refine ⟨?_, ?_⟩
  · intro c hc
    rw [upcomingString, String.toList_ofList, upcomingBits] at hc
    obtain ⟨x, _, rfl⟩ := List.mem_map.1 hc
    split
    · exact .inr rfl
    · exact .inl rfl
  · rw [length_upcomingString]
    omega

/-! ## what is done -/

theorem delivers_generate_some {n : Int} {s : String} (hs : Hideable n s) (prob : Given Number)
    (drawn : Bool) :
    Delivers (programPath "bv" n) (generate (.value n) (some (.value s)) prob drawn none) :=
  delivers_finish (check_eq_ok_iff_hideable.2 hs) drawn

theorem delivers_generate_none {n : Int} (hn : 1 ≤ n) (p : Number) (drawn : Bool) :
    Delivers (programPath "bv" n) (generate (.value n) none (.value p) drawn none) := by
  have hdraw : Passes (Hideable n) (drawString (n - 1) (.value p)) := by
    intro σ
    obtain ⟨random, draws, hdraw⟩ := perform_drawString p n σ
    exact ⟨_, _, hdraw, rfl, hideable_upcomingString hn p σ⟩
  rw [generate_none]
  exact hdraw.bind_delivers fun s hs => delivers_finish (check_eq_ok_iff_hideable.2 hs) drawn

/-- the circuit of the string has been built, its text asked for and written as it was given to the
file of `n` qubits after two comments, and nothing else has been done -/
structure Delivered (n : Int) (s : String) (σ τ : Session) : Prop where
  events : τ.events = σ.events ++ ((circuit n s).calls name ++ [Call.takeText name]).map .call
  tree : τ.tree = σ.tree.put ["bv_n" ++ toString n ++ ".qasm"] (.file (.text
    ("//Bernstein-Vazirani with " ++ toString n ++ " qubits.\n" ++
      "//Hidden string is " ++ s ++ "\n" ++
        σ.programs (σ.calls ++ (circuit n s).calls name) name)))

theorem commented_comments (n : Int) (s program : String) :
    commented (comments n s) program = "//Bernstein-Vazirani with " ++ toString n ++ " qubits.\n" ++
      "//Hidden string is " ++ s ++ "\n" ++ program := by
  have hfirst : "//Bernstein-Vazirani with " = "//" ++ "Bernstein-Vazirani with " := by
    decide +kernel
  have hend : " qubits.\n" = " qubits." ++ "\n" := by decide +kernel
  have hsecond : "//Hidden string is " = "//" ++ "Hidden string is " := by decide +kernel
  rw [hfirst, hend, hsecond]
  simp only [commented, comments, List.map_cons, List.map_nil, String.join, List.foldl_cons,
    List.foldl_nil, String.empty_append, String.append_assoc]

theorem slash_notMem_programPath (n : Int) : '/' ∉ (programPath "bv" n).toList := by
  intro h
  rw [programPath, String.toList_append, String.toList_append, List.mem_append,
    List.mem_append] at h
  rcases h with (h | h) | h
  · exact absurd h (by decide)
  · exact absurd (Bench.isNameChar_of_mem_toString h) (by decide)
  · exact absurd h (by decide)

theorem perform_finish_hideable {n : Int} {s : String} (hs : Hideable n s) {σ : Session}
    {place : Place} (hw : σ.tree.writable (programPath "bv" n) = .ok place) :
    ∃ τ, (finish n false s).perform σ = (.ok (), τ) ∧ Delivered n s σ τ := by
  obtain rfl := Tree.writable_of_notMem (slash_notMem_programPath n) hw
  refine ⟨_, perform_finish (check_eq_ok_iff_hideable.2 hs) hw, Session.events_say _ _, ?_⟩
  rw [← commented_comments]
  rfl

theorem perform_finish_not_hideable {n : Int} {s : String} (hs : ¬ Hideable n s) (σ : Session) :
    ∃ fault, (finish n false s).perform σ = (.error fault, σ) := by
  cases hcheck : check s (n - 1) with
  | ok => exact absurd (check_eq_ok_iff_hideable.1 hcheck) hs
  | error fault => exact ⟨_, perform_finish_error hcheck false σ⟩

/-- without a qubit the string that is drawn is empty, and still too long -/
theorem perform_generate_none_of_lt {n : Int} (hn : n < 1) (p : Number) (σ : Session) :
    ∃ fault, (generate (.value n) none (.value p) false none).perform σ = (.error fault, σ) := by
  have hzero : (n - 1).toNat = 0 := by omega
  have hempty : ¬ Hideable n "" := by
    intro h
    have hlength : (0 : Int) ≤ n - 1 := h.2
    omega
  rw [generate_none, drawString, hzero]
  exact perform_finish_not_hideable hempty σ

theorem perform_generate_none {n : Int} (hn : 1 ≤ n) (p : Number) {σ : Session} {place : Place}
    (hw : σ.tree.writable (programPath "bv" n) = .ok place) :
    ∃ τ, (generate (.value n) none (.value p) false none).perform σ = (.ok (), τ) ∧
      Delivered n (upcomingString p n σ) σ τ := by
  obtain ⟨random, draws, hdraw⟩ := perform_drawString p n σ
  have hdrawn : (σ.redraw random draws).tree.writable (programPath "bv" n) = .ok place := hw
  obtain ⟨τ, hp, hevents, hput⟩ := perform_finish_hideable (hideable_upcomingString hn p σ) hdrawn
  refine ⟨τ, ?_, hevents, hput⟩
  rw [generate_none, perform_bind_ok hdraw, hp]

theorem ok_iff {job : Job Unit} {σ : Session} {P : Prop}
    (hok : P → ∃ τ, job.perform σ = (.ok (), τ))
    (herror : ¬ P → ∃ fault, job.perform σ = (.error fault, σ)) :
    (job.perform σ).1 = .ok () ↔ P := by
  by_cases h : P
  · obtain ⟨τ, hp⟩ := hok h
    simp [hp, h]
  · obtain ⟨fault, hp⟩ := herror h
    simp [hp, h]

/-- **Exactly the strings that can be hidden are taken.**  Where the file can be written, the
generator ends well just for the strings of bits that are shorter than the number of qubits.  It has
then built and written a circuit; the one that its calls record is well formed and asks the places
of the ones, in order, between its barriers.  For every other string it ends with a fault and has
done nothing.  A string that is drawn has the greatest length, and is taken whenever there is a
qubit. -/
theorem hideable_strings_are_taken (n : Int) {σ : Session} {place : Place}
    (hw : σ.tree.writable (programPath "bv" n) = .ok place) :
    (∀ (s : String) (prob : Given Number),
      (((generate (.value n) (some (.value s)) prob false none).perform σ).1 = .ok () ↔
        Hideable n s) ∧
      (Hideable n s →
        (∃ τ, (generate (.value n) (some (.value s)) prob false none).perform σ = (.ok (), τ) ∧
          Delivered n s σ τ) ∧
        Circuit.recorded? ((circuit n s).calls name) = some (circuit n s) ∧
        AsksBetweenBarriers n s (circuit n s : Circuit Number) ∧
        (circuit n s : Circuit Number).WellFormed) ∧
      (¬ Hideable n s → ∃ fault,
        (generate (.value n) (some (.value s)) prob false none).perform σ = (.error fault, σ))) ∧
    ∀ p : Number,
      (((generate (.value n) none (.value p) false none).perform σ).1 = .ok () ↔ 1 ≤ n) ∧
      (1 ≤ n → ∃ s τ, (s.length : Int) = n - 1 ∧ Hideable n s ∧
        (generate (.value n) none (.value p) false none).perform σ = (.ok (), τ) ∧
        Delivered n s σ τ) ∧
      (n < 1 → ∃ fault,
        (generate (.value n) none (.value p) false none).perform σ = (.error fault, σ)) := by
  refine ⟨?_, ?_⟩
  · intro s prob
    rw [generate_some]
    have htaken (hs : Hideable n s) := perform_finish_hideable hs hw
    have hrefused (hs : ¬ Hideable n s) := perform_finish_not_hideable hs σ
    refine ⟨ok_iff (fun hs => ?_) hrefused, ?_, hrefused⟩
    · obtain ⟨τ, hp, _⟩ := htaken hs
      exact ⟨τ, hp⟩
    · intro hs
      exact ⟨htaken hs, Circuit.recorded?_calls _ name (legible_body n s),
        asksBetweenBarriers_circuit n s, wellFormed_circuit hs.2⟩
  · intro p
    have htaken (hn : 1 ≤ n) := perform_generate_none hn p hw
    have hrefused (hn : n < 1) := perform_generate_none_of_lt hn p σ
    refine ⟨ok_iff (fun hn => ?_) (fun hn => hrefused (by omega)), ?_, hrefused⟩
    · obtain ⟨τ, hp, _⟩ := htaken hn
      exact ⟨τ, hp⟩
    · intro hn
      obtain ⟨τ, hp, hdelivered⟩ := htaken hn
      have hlength := length_upcomingString p n σ
      exact ⟨upcomingString p n σ, τ, by omega, hideable_upcomingString hn p σ, hp, hdelivered⟩

/-- two bits on four qubits are taken, in a tree without files; other characters are not, and on two
qubits neither are two bits -/
theorem two_bits_on_four_qubits_are_taken :
    (Hideable 4 "10" ∧ ∃ τ, (generate (.value 4) (some (.value "10")) (.value (.whole 1)) false
        none).perform Session.initial = (.ok (), τ) ∧ Delivered 4 "10" Session.initial τ) ∧
      (¬ Hideable 4 "1x" ∧ ∃ fault, (generate (.value 4) (some (.value "1x")) (.value (.whole 1))
        false none).perform Session.initial = (.error fault, Session.initial)) ∧
      (¬ Hideable 2 "10" ∧ ∃ fault, (generate (.value 2) (some (.value "10")) (.value (.whole 1))
        false none).perform Session.initial = (.error fault, Session.initial)) ∧
      (∃ s τ, (s.length : Int) = 3 ∧ (generate (.value 4) none (.value (.whole 1)) false
        none).perform Session.initial = (.ok (), τ) ∧ Delivered 4 s Session.initial τ) ∧
      ∃ fault, (generate (.value 0) none (.value (.whole 1)) false none).perform Session.initial
        = (.error fault, Session.initial) := by
  have hfour : Session.initial.tree.writable (programPath "bv" 4) = .ok ["bv_n4.qasm"] := by
    decide +kernel
  have htwo : Session.initial.tree.writable (programPath "bv" 2) = .ok ["bv_n2.qasm"] := by
    decide +kernel
  have hzero : Session.initial.tree.writable (programPath "bv" 0) = .ok ["bv_n0.qasm"] := by
    decide +kernel
  have hbits : Hideable 4 "10" := by decide
  have hletter : ¬ Hideable 4 "1x" := by decide
  have hlong : ¬ Hideable 2 "10" := by decide
  obtain ⟨hgiven, hdrawn⟩ := hideable_strings_are_taken 4 hfour
  obtain ⟨hshort, _⟩ := hideable_strings_are_taken 2 htwo
  obtain ⟨_, hempty⟩ := hideable_strings_are_taken 0 hzero
  refine ⟨⟨hbits, ?_⟩, ⟨hletter, ?_⟩, ⟨hlong, ?_⟩, ?_, ?_⟩
  · exact ((hgiven "10" (.value (.whole 1))).2.1 hbits).1
  · exact (hgiven "1x" (.value (.whole 1))).2.2 hletter
  · exact (hshort "10" (.value (.whole 1))).2.2 hlong
  · obtain ⟨s, τ, hlength, _, hp, hdelivered⟩ := (hdrawn (.whole 1)).2.1 (by decide)
    exact ⟨s, τ, hlength, hp, hdelivered⟩
  · exact (hempty (.whole 1)).2.2 (by decide)

end Generate.HiddenString

end CircuitBench
