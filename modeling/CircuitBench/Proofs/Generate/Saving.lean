import CircuitBench.Command
import CircuitBench.Proofs.Session

/-!
# Model circuits are not saved

Building model circuits does nothing to the file tree (`keeps_build`), and what should save them
stops at a name that stands for nothing.  So the command either executes the circuits or ends with a
fault, and it never writes a file.
-/

namespace CircuitBench.Generate.Volume

open Job

theorem keeps_drawNormals (count : Nat) : Keeps (drawNormals count) := fun _ => rfl

theorem keeps_nextDecomposition : Keeps nextDecomposition := fun _ => rfl

theorem keeps_nextPermutation (n : Given Int) : Keeps (nextPermutation n) := by
  intro σ
  rw [nextPermutation, perform_bind_ok (perform_get σ)]
  cases σ.permutations with
  | nil => exact ((keeps_given _ n).bind fun n => keeps_pure (indices n)) σ
  | cons p ps => rfl

/-- a fault under some condition, before the job goes on -/
theorem keeps_stop {α : Type} {p : Prop} [Decidable p] {fault : Fault} {job : Job α}
    (h : Keeps job) : Keeps (if p then throw fault >>= fun _ : Unit => job else job) := by
  split
  · exact (keeps_throw _).bind fun _ => h
  · exact h

theorem keeps_drawUnitary (n : Int) : Keeps (drawUnitary n) :=
  keeps_stop ((keeps_drawNormals _).bind fun _ =>
    keeps_stop (keeps_stop (keeps_stop (keeps_pure _))))

theorem keeps_addPair (perm : List Int) (k : Nat) : Keeps (addPair perm k) := by
  refine (keeps_lift _ _).bind fun p => (keeps_lift _ _).bind fun q => ?_
  refine (keeps_drawUnitary 4).bind fun _ => (keeps_call _).bind fun _ => ?_
  refine keeps_nextDecomposition.bind fun ps => (keeps_callAll _).bind fun _ => ?_
  split
  · exact keeps_throw _
  · exact keeps_pure ()

theorem keeps_repeatJob (count : Nat) {job : Job Unit} (h : Keeps job) :
    Keeps (repeatJob count job) :=
  keeps_forM fun _ _ => h

theorem keeps_addLayer (n : Given Int) : Keeps (addLayer n) :=
  (keeps_nextPermutation n).bind fun perm => (keeps_given _ n).bind fun _ =>
    keeps_forM fun k _ => keeps_addPair perm k

theorem keeps_addCircuit (n depth : Given Int) : Keeps (addCircuit n depth) :=
  (keeps_call _).bind fun _ => (keeps_given _ depth).bind fun d =>
    (keeps_repeatJob d.toNat (keeps_addLayer n)).bind fun _ => keeps_callAll _

theorem keeps_build (n depth count : Given Int) : Keeps (build n depth count) :=
  (keeps_callAll _).bind fun _ => (keeps_given _ count).bind fun c =>
    (keeps_repeatJob c.toNat (keeps_addCircuit n depth)).bind fun _ => keeps_pure _

/-! ## the command -/

theorem perform_generate_unrun (n depth count : Given Int) (backend : Given String) (σ : Session) :
    ∃ fault σ', (generate n depth count false backend).perform σ = (.error fault, σ') ∧
      σ'.tree = σ.tree ∧ ∀ built τ, (build n depth count).perform σ = (.ok built, τ) →
        fault = .undefinedName "num_circ" ∧ σ' = τ := by
  have htree := keeps_build n depth count σ
  rcases hb : (build n depth count).perform σ with ⟨r, τ⟩
  rw [hb] at htree
  cases r with
  | error fault =>
    refine ⟨fault, τ, perform_bind_error hb, htree, ?_⟩
    intro built τ' h
    cases h
  | ok built =>
    refine ⟨.undefinedName "num_circ", τ, perform_bind_ok hb, htree, ?_⟩
    intro built' τ' h
    exact ⟨rfl, (Prod.mk.inj h).2⟩

theorem volume_eq {words : List String} {a : Options.Assignments}
    (h : Options.read Options.Volume.specs words = .ok a) (program : String) :
    Command.volume program words =
      generate (Options.Volume.of a).qubits (Options.Volume.of a).depth (Options.Volume.of a).count
        (Options.Volume.of a).run (Options.Volume.of a).backend := by
  rw [Command.volume, Command.options_eq_pure h, pure_bind]

/-- **Model circuits are never saved.**  Without the option to run them the command ends with a
fault and leaves the tree as it is, whatever its words are; if all circuits were built, the fault is
a name that stands for nothing. -/
theorem circuits_are_never_saved (program : String) (words : List String)
    (hrun : ∀ a, Options.read Options.Volume.specs words = .ok a →
      (Options.Volume.of a).run = false) (σ : Session) :
    ∃ fault σ', (Command.volume program words).perform σ = (.error fault, σ') ∧
      σ'.tree = σ.tree ∧
      ∀ a built τ, Options.read Options.Volume.specs words = .ok a →
        (build (Options.Volume.of a).qubits (Options.Volume.of a).depth
          (Options.Volume.of a).count).perform σ = (.ok built, τ) →
        fault = .undefinedName "num_circ" ∧ σ' = τ := by
  cases hread : Options.read Options.Volume.specs words with
  | error stop =>
    have hoptions : (Command.options program Options.Volume.specs words).perform σ =
        (.error (stop.toFault program), σ) := by
      rw [Command.options, hread]
      rfl
    refine ⟨_, σ, perform_bind_error hoptions, rfl, ?_⟩
    intro a built τ h
    cases h
  | ok a =>
    obtain ⟨fault, σ', hp, htree, hbuilt⟩ := perform_generate_unrun (Options.Volume.of a).qubits
      (Options.Volume.of a).depth (Options.Volume.of a).count (Options.Volume.of a).backend σ
    rw [volume_eq hread, hrun a hread]
    refine ⟨fault, σ', hp, htree, ?_⟩
    rintro _ built τ ⟨⟩
    exact hbuilt built τ

/-- three circuits of one layer on two qubits -/
theorem three_circuits_are_not_saved :
    (Options.read Options.Volume.specs ["-n", "2", "-d", "1", "--num-circ", "3"]).toOption.map
      (fun a => (Options.Volume.of a).run) = some false ∧
    ∃ fault σ', (Command.volume "quantum_volume" ["-n", "2", "-d", "1", "--num-circ", "3"]).perform
      Session.initial = (.error fault, σ') ∧ σ'.tree = Session.initial.tree := by
  have hrun : (Options.read Options.Volume.specs
      ["-n", "2", "-d", "1", "--num-circ", "3"]).toOption.map
        (fun a => (Options.Volume.of a).run) = some false := by decide +kernel
  refine ⟨hrun, ?_⟩
  obtain ⟨fault, σ', hp, htree, _⟩ := circuits_are_never_saved "quantum_volume"
    ["-n", "2", "-d", "1", "--num-circ", "3"] (fun a ha => by
      rw [ha] at hrun
      exact Option.some.inj hrun) Session.initial
  exact ⟨fault, σ', hp, htree⟩

/-- the circuit is built, to the measurement at its end, but there is no file -/
theorem single_circuit_is_not_saved :
    ∃ σ', (Command.volume "quantum_volume" ["-n", "1", "-d", "0"]).perform Session.initial =
        (.error (.undefinedName "num_circ"), σ') ∧
      σ'.calls = [.quantumRegister "q" (.value 1), .classicalRegister "c" (.value 1),
        .circuit ["q", "c"], .barrier (some "q"), .measure "q" "c"] ∧
      σ'.tree = .dir [] := by
  have hread : (Options.read Options.Volume.specs ["-n", "1", "-d", "0"]).toOption.map
      (fun a => ((Options.Volume.of a).qubits, (Options.Volume.of a).depth,
        (Options.Volume.of a).count, (Options.Volume.of a).run)) =
        some (.value 1, .value 0, .value 1, false) := by decide +kernel
  cases ha : Options.read Options.Volume.specs ["-n", "1", "-d", "0"] with
  | error stop =>
    rw [ha] at hread
    cases hread
  | ok a =>
    rw [ha] at hread
    obtain ⟨hqubits, hdepth, hcount, hrun⟩ : _ ∧ _ ∧ _ ∧ _ := by
      simpa [Except.toOption] using hread
    rw [volume_eq ha, hqubits, hdepth, hcount, hrun]
    exact ⟨((build (.value 1) (.value 0) (.value 1)).perform Session.initial).2, rfl, rfl, rfl⟩

end CircuitBench.Generate.Volume
