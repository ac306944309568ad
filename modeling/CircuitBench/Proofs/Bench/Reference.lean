import CircuitBench.Bench.Reference
import CircuitBench.Proofs.Bench.Confirmation
import CircuitBench.Proofs.Generate.Acceptance
import CircuitBench.Proofs.Json.Reading

/-!
# References for hidden strings of ones

A reference for `m` hidden bits is an object with one entry, the outcome of `m` ones, counted
once (`Reference.text`).  The commands that write it piece by piece leave this text and nothing else
(`Reference.perform_write`), and a run for several numbers of bits leaves every reference whole
(`Reference.perform_writeAll`).

A reference agrees with the other two sides of a benchmark: with every bit drawn as a one the
generator writes the circuit of `m + 1` qubits that has this outcome and no other, and the verifier
takes this outcome, counted once, and nothing else (`references_agree_with_circuits`).
-/

namespace CircuitBench

/-! ## drawing ones -/

/-- from zero up to below one -/
def Number.InUnit : Number → Prop
  | .whole n => n = 0
  | .real x => 0 ≤ x ∧ x < 1

theorem float_le_of_lt {x y : Float} (h : x < y) : x ≤ y := by
  have hlt : (x.toModel.unpack.compare y.toModel.unpack == some .lt) = true := of_decide_eq_true h
  have hle : ((x.toModel.unpack.compare y.toModel.unpack).any Ordering.isLE) = true := by
    rw [eq_of_beq hlt]
    rfl
  exact decide_eq_true hle

theorem Number.InUnit.le_one {x : Number} (h : x.InUnit) : x.le (.real 1) = true := by
  cases x with
  | whole n =>
    obtain rfl : n = 0 := h
    decide +kernel
  | real x => exact decide_eq_true (float_le_of_lt h.2)

def ones (m : Nat) : String := String.ofList (List.replicate m '1')

namespace Generate.HiddenString

open CircuitBench.HiddenString

/-- a probability of one makes every drawn bit a one -/
theorem upcomingString_one {m : Nat} {σ : Session} (h : ∀ x ∈ σ.upcoming m, x.InUnit) :
    upcomingString (.real 1) (m + 1) σ = ones m := by
  have hlast : ((m + 1 : Int) - 1).toNat = m := by omega
  have hbits : upcomingBits (.real 1) m σ = List.replicate (σ.upcoming m).length '1' := by
    rw [upcomingBits, List.map_eq_replicate_iff]
    intro x hx
    rw [(h x hx).le_one]
    rfl
  rw [upcomingString, hlast, hbits, Session.length_upcoming, ones]

theorem toList_ones (m : Nat) : (ones m).toList = List.replicate m '1' := String.toList_ofList

theorem length_ones (m : Nat) : ((ones m).length : Int) ≤ m := by
  rw [← String.length_toList, toList_ones, List.length_replicate]

theorem all_ones {P : Char → Prop} (h : P '1') (m : Nat) : ∀ c ∈ (ones m).toList, P c := by
  intro c hc
  rw [toList_ones] at hc
  rwa [List.eq_of_mem_replicate hc]

theorem check_ones (m : Nat) : check (ones m) m = .ok () := by
  rw [check_eq_ok_iff, List.all_eq_true]
  exact ⟨length_ones m, all_ones (P := fun c => isBinary c = true) rfl m⟩

/-- nothing has to be filled up with zeros -/
theorem registerText_found_ones (m : Nat) :
    Quantum.registerText ⟨"cr", m⟩ (found m (ones m)) = ones m := by
  obtain ⟨hlength, hbinary⟩ := (check_eq_ok_iff ..).1 (check_ones m)
  rw [registerText_found hlength hbinary, Int.toNat_natCast, toList_ones, List.leftpad,
    List.length_replicate, Nat.sub_self]
  rfl

/-- the circuit that is written if no string is given and every bit is a one -/
theorem perform_generate_ones (m : Nat) (σ : Session) (hdraws : ∀ x ∈ σ.upcoming m, x.InUnit)
    {place : Place} (hw : σ.tree.writable (programPath "bv" (m + 1)) = .ok place) :
    ∃ σ', (generate (.value (m + 1)) none (.value (.real 1)) false none).perform σ = (.ok (), σ') ∧
      σ'.calls = σ.calls ++ (circuit (m + 1) (ones m)).calls name ++ [.takeText name] ∧
      σ'.tree = σ.tree.put place (.file (.text (commented (comments (m + 1) (ones m))
        (σ.programs (σ.calls ++ (circuit (m + 1) (ones m)).calls name) name)))) := by
  obtain ⟨random, draws, hdraw⟩ := perform_drawString (.real 1) (m + 1) σ
  have hcheck : check (ones m) ((m + 1 : Int) - 1) = .ok () := by
    rw [Int.add_sub_cancel, check_ones]
  have hdrawn : (σ.redraw random draws).tree.writable (programPath "bv" (m + 1)) = .ok place := hw
  rw [upcomingString_one hdraws] at hdraw
  rw [generate_none, Job.perform_bind_ok hdraw, perform_finish hcheck hdrawn]
  refine ⟨_, rfl, ?_, rfl⟩
  rw [List.append_assoc]
  exact Session.calls_say_calls (σ.redraw random draws) _

end Generate.HiddenString

/-! ## writing references -/

theorem ones_succ (m : Nat) : ones (m + 1) = "1" ++ ones m := by
  rw [ones, List.replicate_succ, ← List.singleton_append, String.ofList_append]
  rfl

namespace Reference

def text (m : Nat) : String := "\x7b\"" ++ ones m ++ "\": 1\x7d\n"

/-- the reference is the one of the circuit of one more qubit -/
theorem path_eq (m : Nat) : path m = Generate.programPath "bv" (m + 1) ++ ".ref" := by
  have hnumeral : toString (m + 1 : Int) = toString (m + 1) :=
    String.toList_injective (Bench.toList_ofNat (m + 1))
  have hend : Generate.extension ++ ".ref" = ".qasm.ref" := rfl
  rw [Generate.programPath, hnumeral, path, String.append_assoc, String.append_assoc, hend]
  rfl

theorem slash_notMem_path (m : Nat) : '/' ∉ (path m).toList := by
  rw [path_eq, String.toList_append, List.mem_append]
  rintro (h | h)
  · exact Generate.HiddenString.slash_notMem_programPath _ h
  · exact absurd h (by decide)

theorem path_injective : Function.Injective path := by
  intro m k h
  have hlist := congrArg String.toList h
  simp only [path, String.toList_append] at hlist
  have hnumeral := (List.append_inj (List.append_inj' hlist rfl).1 rfl).2
  have hnat : m + 1 = k + 1 := Nat.repr_inj.1 (String.toList_injective hnumeral)
  omega

section
variable {σ τ : Session} {m : Nat} {place : Place}

theorem perform_command {job : Job Unit} (h : job.perform σ = (.ok (), τ)) :
    (command job).perform σ = (.ok (), τ) := by
  rw [Job.perform] at h ⊢
  rw [command, ExceptT.run_tryCatch, StateT.run_bind, h]
  rfl

/-- every command of the loop writes a one more -/
theorem perform_loop (hw : σ.tree.writable (path m) = .ok place) (before : String)
    (rounds : List Nat) :
    (rounds.forM fun _ => command (Job.extendFile (path m) "1")).perform (σ.write place before)
      = (.ok (), σ.write place (before ++ ones rounds.length)) := by
  induction rounds generalizing before with
  | nil =>
    have hnone : before ++ ones 0 = before := String.append_empty
    rw [List.length_nil, hnone]
    rfl
  | cons round rounds ih =>
    have hone := perform_command (Job.perform_extendFile hw before "1")
    rw [List.length_cons, ones_succ, ← String.append_assoc, ← ih]
    exact Job.perform_bind_ok hone

theorem perform_write (hw : σ.tree.writable (path m) = .ok place) :
    (write m).perform σ = (.ok (), σ.write place (text m)) := by
  have hopen := perform_command (Job.perform_writeFile hw "\x7b\"")
  have hloop := perform_loop hw "\x7b\"" (List.range m)
  rw [List.length_range] at hloop
  rw [write, Job.perform_bind_ok hopen, Job.perform_bind_ok hloop]
  exact perform_command (Job.perform_extendFile hw _ _)

/-- a reference that has been written stays when others are -/
theorem perform_forM_write {ms : List Nat}
    (hw : ∀ m ∈ ms, σ.tree.writable (path m) = .ok [path m]) :
    ∃ τ, (ms.forM write).perform σ = (.ok (), τ) ∧
      (∀ m, σ.tree.writable (path m) = .ok [path m] → τ.tree.writable (path m) = .ok [path m]) ∧
      ∀ m, m ∈ ms ∨ σ.tree.at? [path m] = some (.file (.text (text m))) →
        τ.tree.at? [path m] = some (.file (.text (text m))) := by
  induction ms generalizing σ with
  | nil => exact ⟨σ, rfl, fun _ h => h, fun m h => h.resolve_left List.not_mem_nil⟩
  | cons k ms ih =>
    obtain ⟨hk, hms⟩ := List.forall_mem_cons.1 hw
    let next := σ.write [path k] (text k)
    have hways (m : Nat) (h : σ.tree.writable (path m) = .ok [path m]) :
        next.tree.writable (path m) = .ok [path m] := Tree.writable_put hk h _
    obtain ⟨τ, hrest, hkept, hread⟩ := ih (σ := next) fun m hm => hways m (hms m hm)
    refine ⟨τ, (Job.perform_bind_ok (perform_write hk)).trans hrest,
      fun m h => hkept m (hways m h), fun m h => ?_⟩
    by_cases hmk : m = k
    · subst hmk
      exact hread m (.inr (Tree.at?_put ..))
    · have hne : [path m] ≠ [path k] := fun h => hmk (path_injective (List.singleton_inj.1 h))
      refine hread m (h.imp (fun hm => (List.mem_cons.1 hm).resolve_left hmk) fun hat => ?_)
      exact (Tree.file_put_iff hk hne _ _).2 hat

end

/-- **All references are written.**  Where their files can be written, every one holds its reference
at the end. -/
theorem perform_writeAll {σ : Session}
    (hw : ∀ m, 10 ≤ m → m ≤ 19 → ∃ place, σ.tree.writable (path m) = .ok place) :
    ∃ τ, writeAll.perform σ = (.ok (), τ) ∧
      ∀ m, 10 ≤ m → m ≤ 19 → τ.tree.read (path m) = .ok (.text (text m)) := by
  have hmem (m : Nat) : m ∈ sizes ↔ 10 ≤ m ∧ m ≤ 19 := by
    simp only [sizes, List.mem_map, List.mem_range]
    constructor
    · rintro ⟨i, hi, rfl⟩
      omega
    · intro h
      exact ⟨m - 10, by omega, by omega⟩
  have hplace (m : Nat) (hm : m ∈ sizes) : σ.tree.writable (path m) = .ok [path m] := by
    obtain ⟨place, hp⟩ := hw m ((hmem m).1 hm).1 ((hmem m).1 hm).2
    rw [hp, Tree.writable_of_notMem (slash_notMem_path m) hp]
  obtain ⟨τ, hrun, hkept, hread⟩ := perform_forM_write hplace
  refine ⟨τ, hrun, fun m hlow hhigh => ?_⟩
  have hm := (hmem m).2 ⟨hlow, hhigh⟩
  exact Tree.read_of_writable (hkept m (hplace m hm)) (hread m (.inl hm))

end Reference

/-! ## reading a reference -/

theorem Text.newlines_of_notMem {cs : List Char} (h : '\r' ∉ cs) : Text.newlines cs = cs := by
  fun_induction Text.newlines cs with
  | case1 => rfl
  | case2 cs ih => exact absurd List.mem_cons_self h
  | case3 c cs _ ih =>
    obtain ⟨hc, hcs⟩ := not_or.1 fun h' => h (List.mem_cons.2 h')
    rw [if_neg (Ne.symm hc), ih hcs]

namespace Reference

theorem parse_text (m : Nat) :
    Json.parse (text m) = .ok (.obj [(.ofString (ones m), .num (.whole 1))]) := by
  apply Json.parse_singleton
  exact Generate.HiddenString.all_ones (P := fun c => Json.isPlainText c = true) rfl m

theorem text?_text (m : Nat) : (Content.text (text m)).text? = some (text m).toList := by
  have hreturn : '\r' ∉ (text m).toList := by
    rw [text, String.toList_append, String.toList_append, List.mem_append, List.mem_append]
    rintro ((h | h) | h)
    · exact absurd h (by decide)
    · exact Generate.HiddenString.all_ones (P := (· ≠ '\r')) (by decide) m _ h rfl
    · exact absurd h (by decide)
  rw [Content.text?, Text.newlines_of_notMem hreturn]

end Reference

namespace Bench

theorem holds_singleton (s k : String) (c : Int) :
    Holds (.obj [(.ofString s, .num (.whole 1))]) [(k, .num (.whole c))] ↔ k = s ∧ c = 1 := by
  have hequal : Json.equal (.num (.whole 1)) (.num (.whole c)) = true ↔ c = 1 := by
    show ((1 : Int) == c) = true ↔ c = 1
    rw [beq_iff_eq, eq_comm]
  by_cases hk : k = s
  · simp [Holds, hk, hequal]
  · have hne : (Text.Wide.ofString k == Text.Wide.ofString s) = false := by
      rw [beq_eq_false_iff_ne]
      intro h
      have h := congrArg Text.Wide.toString h
      rw [Text.Wide.toString_ofString, Text.Wide.toString_ofString] at h
      exact hk h
    simp [Holds, hk, hne, List.lookup_cons]

theorem perform_verify_reference (m : Nat) {σ : Session} {file : String}
    (hfile : Path.baseName file = Generate.programPath "bv" (m + 1))
    (hread : σ.tree.read ("bv/ref/" ++ Reference.path m) = .ok (.text (Reference.text m)))
    (k : String) (c : Int) :
    ((verify [(k, .num (.whole c))] "bv" file).perform σ).1 = .ok () ↔ k = ones m ∧ c = 1 := by
  have hpath : referencePath "bv" file = "bv/ref" ++ "/" ++ Reference.path m := by
    rw [referencePath, hfile, Reference.path_eq, String.append_assoc]
    rfl
  have hslash : "bv/ref/" ++ Reference.path m = "bv/ref" ++ "/" ++ Reference.path m := rfl
  rw [hslash] at hread
  have hdir : σ.tree.pathExists (referenceDir "bv") = true :=
    Tree.pathExists_of_slash (by decide) (Tree.pathExists_of_read hread)
  rw [← hpath] at hread
  obtain ⟨r, hr, hiff⟩ := perform_verify [(k, .num (.whole c))] "bv" file σ
  rw [hr, hiff, confirms_iff hdir hread (Reference.text?_text m), String.ofList_toList,
    Reference.parse_text]
  simp [holds_singleton]

open Quantum HiddenString Generate.HiddenString

/-- **References agree with circuits and verification.**  The commands for `m` hidden bits write a
reference where the circuit of `m + 1` qubits has it, and it reads as one entry; a generator that
draws every bit as a one writes that circuit, and what its calls record has the entry as its only
outcome; and the entry is all that the verifier takes. -/
theorem references_agree_with_circuits (m : Nat) :
    (∀ (σ : Session) (place : Place), σ.tree.writable (Reference.path m) = .ok place →
      (Reference.write m).perform σ = (.ok (), σ.write place (Reference.text m))) ∧
    Json.parse (Reference.text m) = .ok (.obj [(.ofString (ones m), .num (.whole 1))]) ∧
    (∀ (σ : Session) (place : Place), (∀ x ∈ σ.upcoming m, x.InUnit) →
      σ.tree.writable (Generate.programPath "bv" (m + 1)) = .ok place →
      ∃ (calls : List Call) (c : Circuit Number) (σ' : Session),
        (generate (.value (m + 1)) none (.value (.real 1)) false none).perform σ = (.ok (), σ') ∧
        σ'.calls = σ.calls ++ calls ++ [.takeText name] ∧
        σ'.tree = σ.tree.put place (.file (.text (Generate.commented (comments (m + 1) (ones m))
          (σ.programs (σ.calls ++ calls) name)))) ∧
        Circuit.recorded? calls = some c ∧
        ∀ f : Number → ℝ, ∃ memory : Bit → Bool,
          (∀ (P : (Bit → Bool) → Prop) [DecidablePred P],
            chance P (c.withAngles f).outcomes = if P memory then 1 else 0) ∧
          registerText ⟨"cr", m⟩ memory = ones m) ∧
    (∀ (σ : Session) (file : String), Path.baseName file = Generate.programPath "bv" (m + 1) →
      σ.tree.read ("bv/ref/" ++ Reference.path m) = .ok (.text (Reference.text m)) →
      ∀ (k : String) (c : Int),
        ((verify [(k, .num (.whole c))] "bv" file).perform σ).1 = .ok () ↔ k = ones m ∧ c = 1) := by
  refine ⟨?_, Reference.parse_text m, ?_, ?_⟩
  · intro σ place hw
    exact Reference.perform_write hw
  · intro σ place hdraws hw
    obtain ⟨σ', hp, hcalls, htree⟩ := perform_generate_ones m σ hdraws hw
    refine ⟨_, circuit (m + 1) (ones m), σ', hp, hcalls, htree,
      Circuit.recorded?_calls _ name (legible_body _ _), ?_⟩
    intro f
    refine ⟨found m (ones m), ?_, registerText_found_ones m⟩
    intro P _
    rw [circuit_withAngles]
    exact chance_outcomes (Int.natCast_nonneg m) (length_ones m) P
  · intro σ file hfile hread k c
    exact perform_verify_reference m hfile hread k c

/-- a circuit of three qubits with its reference -/
def threeQubits : Session :=
  { Session.initial with
    tree := .dir [("bv", .dir [("ref", .dir
      [("bv_n3.qasm.ref", .file (.text (Reference.text 2)))])])]
    draws := [.real 0.5, .whole 0] }

theorem references_agree_for_two_bits :
    (Reference.write 2).perform threeQubits
      = (.ok (), threeQubits.write ["bv_n3.qasm.ref"] "\x7b\"11\": 1\x7d\n") ∧
    (∃ (calls : List Call) (c : Circuit Number) (memory : Bit → Bool) (σ' : Session),
      (generate (.value 3) none (.value (.real 1)) false none).perform threeQubits
        = (.ok (), σ') ∧
      σ'.tree = threeQubits.tree.put ["bv_n3.qasm"] (.file (.text (Generate.commented
        (comments 3 (ones 2)) (programText calls)))) ∧
      Circuit.recorded? calls = some c ∧
      (∀ (P : (Bit → Bool) → Prop) [DecidablePred P],
        chance P (c.withAngles fun _ => 0).outcomes = if P memory then 1 else 0) ∧
      registerText ⟨"cr", 2⟩ memory = "11") ∧
    ((verify [("11", .num (.whole 1))] "bv" "bv/bv_n3.qasm").perform threeQubits).1 = .ok () ∧
    ((verify [("10", .num (.whole 1))] "bv" "bv/bv_n3.qasm").perform threeQubits).1 ≠ .ok () := by
  obtain ⟨hwrite, _, hgenerate, hverify⟩ := references_agree_with_circuits 2
  have hdraws : ∀ x ∈ threeQubits.upcoming 2, x.InUnit := by
    have h : threeQubits.upcoming 2 = [.real 0.5, .whole 0] := rfl
    rw [h]
    simp only [List.forall_mem_cons]
    refine ⟨⟨by decide +kernel, by decide +kernel⟩, rfl, by simp⟩
  have hread : threeQubits.tree.read ("bv/ref/" ++ Reference.path 2)
      = .ok (.text (Reference.text 2)) := by decide +kernel
  have hverify := hverify threeQubits "bv/bv_n3.qasm" (by decide +kernel) hread
  obtain ⟨calls, c, σ', hp, _, htree, hc, hmeasured⟩ :=
    hgenerate threeQubits ["bv_n3.qasm"] hdraws (by decide +kernel)
  obtain ⟨memory, hP, ht⟩ := hmeasured fun _ => 0
  refine ⟨?_, ⟨calls, c, memory, σ', hp, htree, hc, hP, ht⟩, ?_, ?_⟩
  · exact hwrite threeQubits ["bv_n3.qasm.ref"] (by decide +kernel)
  · exact (hverify "11" 1).2 ⟨rfl, rfl⟩
  · rw [Ne, hverify]
    decide

end Bench

end CircuitBench
