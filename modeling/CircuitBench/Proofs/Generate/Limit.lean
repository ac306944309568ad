import CircuitBench.Command
import CircuitBench.Proofs.FourierTransform
import CircuitBench.Proofs.Generate.Delivery

/-!
# How large a transform can be

Column `j` of the transform has `5 * j + 1` gates, so that there are `n + 5 * n * (n - 1) / 2` of
them in all (`length_gates`).  The first rotation of column 1024 has an angle that cannot be
written, and a transform of more qubits stops there: it has added the gates of 1024 qubits
(`perform_transform_of_lt`).  Up to that size the circuit is built and its file is written
(`delivers_generate`); beyond it, whoever builds or generates the transform ends with the same
fault, before the circuit is kept and before a file is opened (`Stops`).
-/

namespace CircuitBench.Fourier

variable {θ : Type} [Phase θ]

/-! ## the number of gates -/

theorem length_gates_column (j : Nat) :
    ((column j).flatMap (Step.gates (θ := θ))).length = 5 * j + 1 := by
  have hrotate (k : Nat) : (Step.gates (θ := θ) (.rotate j k)).length = 5 :=
    controlledPhase_length _ j k
  rw [column, List.flatMap_append, List.length_append, List.flatMap_map, List.length_flatMap]
  simp only [hrotate, List.map_const', List.length_range, List.sum_replicate]
  show j * 5 + 1 = 5 * j + 1
  omega

theorem two_mul_length_gates (n : Nat) :
    2 * (gates (θ := θ) n).length = 2 * n + 5 * n * (n - 1) := by
  induction n with
  | zero => rfl
  | succ n ih =>
    have hsquare : 5 * (n + 1) * n = 5 * n * (n - 1) + 10 * n := by
      cases n with
      | zero => rfl
      | succ n =>
        rw [Nat.add_sub_cancel]
        ring
    unfold gates at ih ⊢
    rw [steps_succ, List.flatMap_append, List.length_append, length_gates_column,
      Nat.add_sub_cancel, hsquare]
    omega

theorem length_gates (n : Nat) : (gates (θ := θ) n).length = n + 5 * n * (n - 1) / 2 := by
  have h := two_mul_length_gates (θ := θ) n
  omega

end CircuitBench.Fourier

namespace CircuitBench.Generate.Fourier

open CircuitBench.Fourier Job

/-! ## what is added to a circuit -/

theorem length_added (n : Nat) : (added n).length = n + 5 * n * (n - 1) / 2 := by
  rw [added, List.length_map, length_gates]

theorem perform_transform_int (n : Int) (σ : Session) :
    (transform n).perform σ
      = (if n ≤ 1024 then .ok () else .error (.number .wholeTooLarge),
          σ.say (((added (min n.toNat 1024)).map Call.gate).map .call)) := by
  have hnat : transform n = transform n.toNat := by
    unfold transform
    rw [Int.toNat_natCast]
  have hle : n.toNat ≤ 1024 ↔ n ≤ 1024 := by omega
  rw [hnat, perform_transform]
  simp only [hle]

theorem perform_transform_of_le {n : Int} (h : n ≤ 1024) (σ : Session) :
    (transform n).perform σ = (.ok (), σ.say (((added n.toNat).map Call.gate).map .call)) := by
  have hmin : min n.toNat 1024 = n.toNat := by omega
  rw [perform_transform_int, if_pos h, hmin]

theorem perform_transform_of_lt {n : Int} (h : 1024 < n) (σ : Session) :
    (transform n).perform σ = (.error (.number .wholeTooLarge),
      σ.say (((added 1024).map Call.gate).map .call)) := by
  have hmin : min n.toNat 1024 = 1024 := by omega
  rw [perform_transform_int, if_neg (by omega), hmin]

/-! ## what is written -/

theorem passes_build {n : Int} (h : n ≤ 1024) (name : String) :
    Passes (fun _ => True) (build name (.value n)) := by
  have htransform : Passes (fun _ => True) (transform n) := fun σ =>
    ⟨(), _, perform_transform_of_le h σ, rfl, trivial⟩
  exact (passes_callAll _).bind fun _ _ => htransform.bind fun _ _ =>
    (passes_callAll _).bind fun _ _ => passes_call _

/-- the file is opened before the text is asked for, and filled after it -/
theorem delivers_generate {n : Int} (h : n ≤ 1024) (name : String) :
    Delivers (programPath name n) (generate (.value name) (.value n)) := by
  have hname : Job.given (.kind (.joinedToList "str")) (.value name) = pure name := rfl
  have hn : Job.given (.kind (.count Given.blankKind)) (.value n) = pure n := rfl
  refine (passes_build h name).bind_delivers fun _ _ => ?_
  simp only [hname, hn, pure_bind]
  intro σ place hw
  let taken := σ.say [.call (.takeText (keptName name n))]
  let program := σ.programs σ.calls (keptName name n)
  refine ⟨(), taken.write place program, program, ?_, rfl⟩
  rw [← programPath, perform_bind_ok (perform_openFile hw), perform_bind_ok (perform_takeText _ _)]
  exact perform_fillFile place "" program taken

/-! ## who asks for too much -/

/-- the circuit that a call adds to the collection -/
def circuitOf? : Call → Option String
  | .createCircuit name => some name
  | .addCircuit name => some name
  | _ => none

/-- the job ends with the fault of a number that is too large; all that it has done is to make
calls, and these have added the circuit under its working name and no other -/
def Stops {α : Type} (job : Job α) : Prop :=
  ∀ σ : Session, ∃ calls : List Call,
    job.perform σ = (.error (.number .wholeTooLarge), σ.say (calls.map .call)) ∧
      calls.filterMap circuitOf? = ["meas"]

theorem Stops.bind {α β : Type} {job : Job α} (h : Stops job) (next : α → Job β) :
    Stops (job >>= next) := by
  intro σ
  obtain ⟨calls, hp, hnames⟩ := h σ
  exact ⟨calls, perform_bind_error hp, hnames⟩

theorem stops_build {n : Int} (h : 1024 < n) (name : String) : Stops (build name (.value n)) := by
  intro σ
  refine ⟨openingCalls (.value n) ++ (added 1024).map .gate, ?_, ?_⟩
  · rw [build, perform_bind_ok (perform_callAll _ _), perform_bind_ok (perform_given _ _ _),
      perform_bind_error (perform_transform_of_lt h _), Session.say_say, List.map_append]
  · have hgates (gs : List (Gate Number String)) :
        (gs.map Call.gate).filterMap circuitOf? = [] := by
      rw [List.filterMap_map, List.filterMap_eq_nil_iff]
      intro g _
      rfl
    rw [List.filterMap_append, hgates, List.append_nil]
    rfl

theorem stops_generate {n : Int} (h : 1024 < n) (name : Given String) :
    Stops (generate name (.value n)) :=
  (stops_build h _).bind _

theorem stops_command {n : Int} (h : 1024 < n) {words : List String} {a : Options.Assignments}
    (hread : Options.read Options.Fourier.specs words = .ok a)
    (hn : (Options.Fourier.of a).qubits = .value n) (program : String) :
    Stops (Command.fourier program words) := by
  rw [Command.fourier, Command.options_eq_pure hread, pure_bind]
  show Stops (generate (Options.Fourier.of a).name (Options.Fourier.of a).qubits)
  rw [hn]
  exact stops_generate h _

/-- **The size limit of the transform.**  Up to 1024 qubits it is added whole, one gate for each
qubit and five for each pair.  For more it ends with a fault after the gates of 1024 qubits, and so
do building and generating it and the command: they leave the files as they are and have added no
circuit but the one under its working name. -/
theorem transform_has_size_limit (n : Int) :
    (∀ σ, ((transform n).perform σ).1 = .ok () ↔ n ≤ 1024) ∧
      (n ≤ 1024 → ∀ σ, ∃ gs : List (Gate Number String),
        (transform n).perform σ = (.ok (), σ.say ((gs.map Call.gate).map .call)) ∧
        gs.length = n.toNat + 5 * n.toNat * (n.toNat - 1) / 2) ∧
      (1024 < n →
        (∀ σ, (transform n).perform σ
          = (.error (.number .wholeTooLarge), ((transform 1024).perform σ).2)) ∧
        (∀ name, Stops (build name (.value n))) ∧ (∀ name, Stops (generate name (.value n))) ∧
        ∀ program words a, Options.read Options.Fourier.specs words = .ok a →
          (Options.Fourier.of a).qubits = .value n → Stops (Command.fourier program words)) := by
  refine ⟨?_, ?_, ?_⟩
  · intro σ
    rw [perform_transform_int]
    by_cases h : n ≤ 1024
    · simp [h]
    · simp [h]
  · intro h σ
    exact ⟨added n.toNat, perform_transform_of_le h σ, length_added n.toNat⟩
  · intro h
    refine ⟨?_, stops_build h, stops_generate h, ?_⟩
    · intro σ
      rw [perform_transform_of_lt h, perform_transform_of_le le_rfl]
      rfl
    · intro program words a hread hn
      exact stops_command h hread hn program

/-- five qubits have fifty-five gates; one more than 1024 of them are too many -/
theorem command_for_1025_qubits_stops :
    ((5 : Int) ≤ 1024 ∧ ∃ gs : List (Gate Number String),
      (transform 5).perform Session.initial
        = (.ok (), Session.initial.say ((gs.map Call.gate).map .call)) ∧ gs.length = 55) ∧
      (1024 : Int) < 1025 ∧
      (Options.read Options.Fourier.specs ["-n", "1025"]).toOption.map
        (fun a => (Options.Fourier.of a).qubits) = some (.value 1025) ∧
      Stops (Command.fourier "fourier" ["-n", "1025"]) := by
  obtain ⟨_, hfive, _⟩ := transform_has_size_limit 5
  obtain ⟨_, _, hmore⟩ := transform_has_size_limit 1025
  obtain ⟨_, _, _, hcommand⟩ := hmore (by decide)
  have hqubits : (Options.read Options.Fourier.specs ["-n", "1025"]).toOption.map
      (fun a => (Options.Fourier.of a).qubits) = some (.value 1025) := by decide +kernel
  refine ⟨⟨by decide, hfive (by decide) Session.initial⟩, by decide, hqubits, ?_⟩
  cases ha : Options.read Options.Fourier.specs ["-n", "1025"] with
  | error stop =>
    rw [ha] at hqubits
    cases hqubits
  | ok a =>
    rw [ha] at hqubits
    exact hcommand "fourier" _ a ha (Option.some.inj hqubits)

end CircuitBench.Generate.Fourier
