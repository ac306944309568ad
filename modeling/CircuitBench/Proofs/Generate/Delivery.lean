import CircuitBench.Generate.CounterfeitCoin
import CircuitBench.Generate.HiddenString
import CircuitBench.Proofs.Bench.Selection
import CircuitBench.Proofs.Generate.Output

/-!
# The files of the generators

A delivery without a drawing ends with a fault before its file is opened, or it writes the text that
the toolkit gives (`perform_deliver_inv`).  Where the file of its number of qubits can be written, a
generator ends well and writes it: `HiddenString.delivers_finish` for a string that can be hidden,
`CounterfeitCoin.delivers_generate` for any coin.
-/

namespace CircuitBench.Generate

open Job

def programPath (name : String) (n : Int) : String := name ++ "_n" ++ toString n ++ extension

/-- a numeral does not end with the extension -/
theorem outputPath_numeral (front : String) (n : Int) :
    outputPath (front ++ toString n) = .ok (front ++ toString n ++ extension) := by
  have hends : (front ++ toString n).endsWith extension = false := by
    rw [String.endsWith_eq_endsWith_toSlice, String.Slice.endsWith_string_eq_false_iff]
    rintro ⟨rest, hr⟩
    obtain ⟨digits, c, hd, hc⟩ := Bench.exists_last_digit n
    rw [String.copy_toSlice, String.toList_append, hd, ← List.append_assoc] at hr
    have hlast := congrArg List.getLast? hr
    have hm : extension.toList = ".qas".toList ++ ['m'] := rfl
    rw [hm, ← List.append_assoc, List.getLast?_concat, List.getLast?_concat] at hlast
    rw [← Option.some.inj hlast] at hc
    cases hc
  rw [outputPath, hends]
  rfl

/-! ## delivery -/

section
variable (circuitName : String) (comments : List String) {name path : String}
  (hpath : outputPath name = .ok path)
include hpath

theorem deliver_eq (drawn : Bool) :
    deliver circuitName comments drawn (.value name) = (do
      let program ← Job.takeText circuitName
      Job.writeFile path (commented comments program)
      if drawn then
        Job.call (.takeCircuit circuitName)
        draw (name ++ ".tex")) := by
  have hname : Job.given (.noMember Given.blankKind "endswith") (.value name) = pure name := rfl
  rw [deliver, hname]
  simp only [pure_bind, output_some _ comments hpath]

theorem delivers_deliver (drawn : Bool) :
    Delivers path (deliver circuitName comments drawn (.value name)) := by
  rw [deliver_eq _ _ hpath]
  refine (passes_takeText _).bind_delivers fun program _ =>
    (delivers_writeFile _ _).bind_passes (P := fun _ => True) fun _ => ?_
  cases drawn with
  | false => exact passes_pure trivial
  | true => exact (passes_call _).bind fun _ _ => passes_call _

theorem perform_deliver {σ : Session} {place : Place} (hw : σ.tree.writable path = .ok place) :
    (deliver circuitName comments false (.value name)).perform σ
      = (.ok (), (σ.say [.call (.takeText circuitName)]).write place
          (commented comments (σ.programs σ.calls circuitName))) := by
  have hsaid : (σ.say [.call (.takeText circuitName)]).tree.writable path = .ok place := hw
  rw [deliver_eq _ _ hpath, perform_bind_ok (perform_takeText _ _),
    perform_bind_ok (perform_writeFile hsaid _)]
  rfl

/-- a delivery after the calls that build the circuit -/
theorem perform_deliver_built (cs : List Call) {σ : Session} {place : Place}
    (hw : σ.tree.writable path = .ok place) :
    (deliver circuitName comments false (.value name)).perform (σ.say (cs.map .call))
      = (.ok (), (σ.say ((cs ++ [Call.takeText circuitName]).map .call)).write place
          (commented comments (σ.programs (σ.calls ++ cs) circuitName))) := by
  have hbuilt : (σ.say (cs.map .call)).tree.writable path = .ok place := hw
  rw [perform_deliver _ _ hpath hbuilt, Session.calls_say_calls, Session.say_say, List.map_append]
  rfl

end

/-- without a drawing a delivery ends with a fault before the file is opened, or it writes it -/
theorem perform_deliver_inv {circuitName : String} {comments : List String}
    {name : Given String} {σ τ : Session} {r : Except Fault Unit}
    (h : (deliver circuitName comments false name).perform σ = (r, τ)) :
    (∃ fault, r = .error fault ∧ τ.tree = σ.tree) ∨
      (r = .ok () ∧ ∃ given path place, name = .value given ∧ outputPath given = .ok path ∧
        σ.tree.writable path = .ok place ∧
        τ.tree = σ.tree.put place
          (.file (.text (commented comments (σ.programs σ.calls circuitName))))) := by
  cases name with
  | blank =>
    obtain ⟨hr, hτ⟩ := Prod.mk.inj h
    exact .inl ⟨_, hr.symm, by rw [← hτ]⟩
  | value given =>
    cases hpath : outputPath given with
    | error fault =>
      have hlift : Job.lift id (.error fault : Except Fault String) = throw fault := rfl
      have hname : Job.given (.noMember Given.blankKind "endswith") (.value given) = pure given :=
        rfl
      rw [deliver, perform_bind_ok (perform_takeText _ _), hname, pure_bind] at h
      simp only [output, hpath, hlift] at h
      obtain ⟨hr, hτ⟩ := Prod.mk.inj h
      exact .inl ⟨_, hr.symm, by rw [← hτ]; rfl⟩
    | ok path =>
      cases hw : σ.tree.writable path with
      | error fault =>
        have hsaid : (σ.say [.call (.takeText circuitName)]).tree.writable path = .error fault := hw
        rw [deliver_eq _ _ hpath, perform_bind_ok (perform_takeText _ _),
          perform_bind_error (perform_writeFile_error hsaid _)] at h
        obtain ⟨hr, hτ⟩ := Prod.mk.inj h
        exact .inl ⟨_, hr.symm, by rw [← hτ]; rfl⟩
      | ok place =>
        rw [perform_deliver _ _ hpath hw] at h
        obtain ⟨hr, hτ⟩ := Prod.mk.inj h
        exact .inr ⟨hr.symm, given, path, place, rfl, hpath, hw, by rw [← hτ]; rfl⟩

/-! ## the generators -/

namespace HiddenString

open CircuitBench.HiddenString

/-- what is left to do once there is a string -/
def finish (n : Int) (drawn : Bool) (s : String) : Job Unit := do
  Job.lift .hiddenString (check s (n - 1))
  build n s
  deliver name (comments n s) drawn (.value (defaultName n))

section
variable (n : Int) (s : String) (drawn : Bool)

theorem generate_some (prob : Given Number) :
    generate (.value n) (some (.value s)) prob drawn none = finish n drawn s := rfl

theorem generate_none (prob : Given Number) :
    generate (.value n) none prob drawn none = drawString (n - 1) prob >>= finish n drawn :=
  bind_map_left Given.value (drawString (n - 1) prob) _

theorem outputPath_defaultName : outputPath (defaultName n) = .ok (programPath "bv" n) :=
  outputPath_numeral "bv_n" n

end

section
variable {n : Int} {s : String} (hs : check s (n - 1) = .ok ())
include hs

theorem finish_eq (drawn : Bool) :
    finish n drawn s = (do
      build n s
      deliver name (comments n s) drawn (.value (defaultName n))) := by
  rw [finish, hs]
  rfl

theorem delivers_finish (drawn : Bool) : Delivers (programPath "bv" n) (finish n drawn s) := by
  rw [finish_eq hs]
  exact (passes_callAll _).bind_delivers fun _ _ =>
    delivers_deliver _ _ (outputPath_defaultName n) drawn

theorem perform_finish {σ : Session} {place : Place}
    (hw : σ.tree.writable (programPath "bv" n) = .ok place) :
    (finish n false s).perform σ
      = (.ok (), (σ.say (((circuit n s).calls name ++ [Call.takeText name]).map .call)).write place
          (commented (comments n s) (σ.programs (σ.calls ++ (circuit n s).calls name) name))) := by
  rw [finish_eq hs, build, perform_bind_ok (perform_callAll _ _),
    perform_deliver_built _ _ (outputPath_defaultName n) _ hw]

end

theorem perform_finish_error {n : Int} {s : String} {fault : CircuitBench.HiddenString.Fault}
    (hs : check s (n - 1) = .error fault) (drawn : Bool) (σ : Session) :
    (finish n drawn s).perform σ = (.error (.hiddenString fault), σ) := by
  rw [finish, hs]
  exact perform_bind_error rfl

end HiddenString

namespace CounterfeitCoin

theorem delivers_generate (n : Int) (coin : Given Int) (drawn : Bool) :
    Delivers (programPath "cc" (n + 1)) (generate (.value n) coin drawn none) := by
  have hn : Job.given noCoins (.value n) = pure n := rfl
  have hpath : outputPath (defaultName n) = .ok (programPath "cc" (n + 1)) :=
    outputPath_numeral "cc_n" (n + 1)
  have hbuild : Passes (fun _ => True) (buildGiven n coin) := by
    cases coin with
    | value coin => exact passes_callAll _
    | blank => exact passes_callAll _
  rw [generate, hn, if_neg (by simp), pure_bind]
  exact hbuild.bind_delivers fun _ _ => delivers_deliver _ _ hpath drawn

end CounterfeitCoin

end CircuitBench.Generate
