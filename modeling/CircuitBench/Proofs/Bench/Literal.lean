import CircuitBench.Proofs.Bench.LastFile
import CircuitBench.Proofs.Tree.Writing

/-!
# Names that are taken as they are

The name of a benchmark goes into a pattern for paths and into two text patterns.  A name is literal
(`IsLiteral`) if a directory that holds nothing but the circuit of some number of qubits is enough
for a run: the circuit is loaded and executed, and the run ends well.

Names without special characters are literal (`isLiteral_of_isVerbatim`), and for each special
character there is a name with it that is not (`not_isLiteral`).  So a class of characters
makes literal names only if it leaves the special ones out; of the two braces it may have one.
Numbers of qubits are taken to be written with all their digits.
-/

namespace CircuitBench.Bench

open Pattern

/-! ## the text pattern -/

open Reading Pattern.Reading in
theorem ending_plainTokens : Ending plainTokens plainItems extension 8 where
  reads := fun _ => takeSequence_plainTokens
  closing := by decide
  check := rfl
  finds := by
    intro text s h
    have hreads := reads_plain [] text some s
    exact hreads.2 ⟨extension, [], by rw [h, List.append_nil], ⟨[], rfl, by simp⟩, rfl⟩

theorem selects_self {stem : String} (hs : ∀ c ∈ stem.toList, isVerbatim c = true)
    (hbrace : '\x7b' ∉ stem.toList ∨ '\x7d' ∉ stem.toList) :
    selects stem (stem ++ ".qasm") = .ok true := by
  have hbackslash : '\\' ∉ stem.toList := by
    intro h
    have hno := hs _ h
    revert hno
    decide
  have htokens := tokens?_append hbackslash (show .plain '\\' ∉ Reading.plainTokens by decide)
  rw [← toList_plainPattern] at htokens
  obtain ⟨p, hp, hfound⟩ := exists_parse_verbatim ending_plainTokens (by decide) hs hbrace htokens
  have hfile : (stem ++ ".qasm").toList = stem.toList ++ extension := by
    rw [String.toList_append]
    rfl
  rw [selects, hp]
  show (if p.occursIn (stem ++ ".qasm").toList = true then _ else _) = _
  rw [hfile, if_pos hfound]
  rfl

/-! ## literal names -/

/-- the circuit of `q` qubits is alone in its directory, and is to be run without verification on
a simulator -/
structure Alone (name : String) (q : Nat) (s : Settings) (backend : String) (seed : Json)
    (σ : Session) : Prop where
  named : s.name = .value name
  machine : s.backend = .value backend
  simulated : isLocal backend = true
  numbers : s.numbers = .ok (0, seed)
  unverified : s.verify.truthy = false
  smooth : Smooth σ
  order : ∀ paths, (σ.order paths).Perm paths
  sole : ∃ t, σ.tree.lookup name = .ok (.dir [(stem name q 0 ++ ".qasm", t)])

/-- wherever the circuit is alone, it is run -/
def IsLiteral (name : String) : Prop :=
  ∀ (q : Nat) (s : Settings) (backend : String) (seed : Json) (σ : Session),
    Alone name q s backend seed σ →
      ((run s q).perform σ).1 = .ok true ∧
      ((run s q).perform σ).2.calls = σ.calls ++
        fileCalls ⟨name, .value backend, q, 0, seed, false⟩ backend
          (name ++ "/" ++ (stem name q 0 ++ ".qasm"))

section
variable {name : String} {q : Nat} {s : Settings} {backend : String} {seed : Json} {σ : Session}

theorem Alone.plan (h : Alone name q s backend seed σ) :
    s.plan q = .ok ⟨name, .value backend, q, 0, seed, false⟩ := by
  rw [Settings.plan, h.numbers, h.named, h.machine, h.unverified]
  rfl

/-- what a run does if the circuit is the only one listed, and is selected -/
theorem Alone.run (h : Alone name q s backend seed σ) {file : String}
    (hlisting : σ.order (σ.tree.expand (pathPattern name q 0)) = [file])
    (hsel : selects (stem name q 0) (Path.baseName file) = .ok true) :
    ((run s q).perform σ).1 = .ok true ∧
      ((run s q).perform σ).2.calls = σ.calls ++
        fileCalls ⟨name, .value backend, q, 0, seed, false⟩ backend file := by
  have hall : ∀ f ∈ σ.order (σ.tree.expand (pathPattern name q 0)),
      selects (stem name q 0) (Path.baseName f) = .ok true := by
    rw [hlisting]
    intro f hf
    rw [List.mem_singleton.1 hf]
    exact hsel
  constructor
  · have hend : ((Bench.run s q).perform σ).1 =
        goodEnd (fun _ => true) false (σ.order (σ.tree.expand (pathPattern name q 0))) :=
      run_readable h.plan h.simulated rfl h.smooth hall
    rw [hend, hlisting]
    rfl
  · have hcalls := calls_run h.named h.machine h.numbers h.unverified h.simulated q h.smooth
      (fun _ => true) hall
    rw [hcalls, hlisting]
    simp

/-- names without special characters are literal -/
theorem isLiteral_of_isVerbatim (h0 : name ≠ "") (hslash : '/' ∉ name.toList)
    (hdot : name.toList.head? ≠ some '.') (hname : ∀ c ∈ name.toList, isVerbatim c = true)
    (hbrace : '\x7b' ∉ name.toList ∨ '\x7d' ∉ name.toList) : IsLiteral name := by
  intro q s backend seed σ h
  obtain ⟨t, hsole⟩ := h.sole
  have hplain : ∀ c ∈ name.toList, NamePattern.isPlain c = true :=
    fun c hc => isPlain_of_isVerbatim (hname c hc)
  have hstem : ∀ c ∈ (stem name q 0).toList, isVerbatim c = true := by
    intro c hc
    rcases mem_stem _ _ hc with hc | hc
    · exact hname c hc
    · exact isVerbatim_of_isNameChar hc
  -- a brace or a slash of the stem is one of the name
  have hback {d : Char} (hd : isNameChar d = false) (hno : d ∉ name.toList) :
      d ∉ (stem name q 0).toList := by
    intro hm
    rcases mem_stem _ _ hm with hm | hm
    · exact hno hm
    · exact ne_of_isNameChar hm hd rfl
  have hfile : '/' ∉ (stem name q 0 ++ ".qasm").toList := by
    rw [String.toList_append, List.mem_append, not_or]
    exact ⟨hback rfl hslash, by decide⟩
  have hfits : Tree.nameFits (stem name q 0 ++ "*.qasm") (stem name q 0 ++ ".qasm") = true := by
    rw [nameFits_stem_of_isPlain hplain q 0 hdot]
    exact ⟨[], by rw [String.toList_append, List.append_nil]; rfl⟩
  have hexpand := expand_pathPattern_of_isPlain h0 hplain q 0 hslash hsole (by simpa using hfile)
  simp only [List.filter_cons, hfits, if_true, List.filter_nil, List.map_cons, List.map_nil]
    at hexpand
  have hlisting : σ.order (σ.tree.expand (pathPattern name q 0))
      = [name ++ "/" ++ (stem name q 0 ++ ".qasm")] := by
    rw [hexpand]
    exact List.perm_singleton.1 (h.order _)
  refine h.run hlisting ?_
  rw [Path.baseName_slash hfile]
  exact selects_self hstem (hbrace.imp (hback rfl) (hback rfl))

end

/-! ## names that are not literal -/

/-- nothing but a directory with the circuit of three qubits -/
def soleCircuit (name : String) : Session :=
  { Session.initial with
    tree := .dir [(name, .dir [(stem name 3 0 ++ ".qasm", .file (.text ""))])]
    order := id }

def simulated (name : String) : Settings :=
  ⟨.value name, .value "local_sim", .num (.whole 0), .null, .bool false⟩

def simulatedPlan (name : String) : Plan := ⟨name, .value "local_sim", 3, 0, .null, false⟩

theorem alone_soleCircuit {name : String} (h : Tree.IsName name) :
    Alone name 3 (simulated name) "local_sim" .null (soleCircuit name) where
  named := rfl
  machine := rfl
  simulated := by decide +kernel
  numbers := rfl
  unverified := rfl
  smooth := ⟨by simp [soleCircuit, Session.initial], by simp [soleCircuit, Session.initial]⟩
  order := fun paths => List.Perm.refl paths
  sole := ⟨.file (.text ""), Tree.lookup_name h List.lookup_cons_self⟩

def endsWell (name : String) : Bool :=
  ((simulatedPlan name).listing (soleCircuit name)).getLast?.bind
    (fun f => ((simulatedPlan name).answer f).toOption) == some true

theorem not_isLiteral {name : String} (h : Tree.IsName name) (hends : endsWell name = false) :
    ¬ IsLiteral name := by
  intro hliteral
  have halone := alone_soleCircuit h
  have hrun := (hliteral _ _ _ _ _ halone).1
  obtain ⟨_, f, hf, hsel⟩ := (run_eq_true_iff halone.plan halone.simulated rfl halone.smooth).1 hrun
  have hyes : endsWell name = true := by
    unfold endsWell
    rw [show ((simulatedPlan name).listing (soleCircuit name)).getLast? = some f from hf,
      Option.bind_some, show (simulatedPlan name).answer f = .ok true from hsel]
    rfl
  rw [hends] at hyes
  cases hyes

/-- a name of the usual characters and those of `cs` that is not literal -/
def spoils (cs : List Char) (name : String) : Bool :=
  decide (Tree.IsName name) && !endsWell name && name.toList.head? != some '.' &&
    name.toList.all fun c => cs.contains c || isNameChar c

/-- each special character with a name that it spoils -/
def spoiled : List (Char × String) :=
  [('[', "[b-a"), ('*', "*"), ('+', "a+b"), ('?', "?"), ('^', "^"), ('$', "$"), ('(', "("),
    (')', ")"), ('\\', "\\d")]

theorem spoils_spoiled : spoiled.all (fun e => spoils [e.1] e.2) = true := by decide +kernel

theorem spoils_braced : spoils ['\x7b', '\x7d'] "a\x7b1\x7d" = true := by decide +kernel

theorem exists_not_isLiteral {S : Char → Prop} (husual : ∀ c, isNameChar c = true → S c)
    {cs : List Char} (hcs : ∀ c ∈ cs, S c) {name : String} (h : spoils cs name = true) :
    name ≠ "" ∧ (∀ c ∈ name.toList, S c) ∧ name.toList.head? ≠ some '.' ∧ ¬ IsLiteral name := by
  simp only [spoils, Bool.and_eq_true, decide_eq_true_eq, Bool.not_eq_true', bne_iff_ne,
    List.all_eq_true, Bool.or_eq_true, List.contains_iff_mem] at h
  obtain ⟨⟨⟨hname, hends⟩, hdot⟩, hchars⟩ := h
  refine ⟨hname.ne_empty, fun c hc => ?_, hdot, not_isLiteral hname hends⟩
  rcases hchars c hc with hc | hc
  · exact hcs c hc
  · exact husual c hc

/-- **Names are literal as long as they have no special characters.**  Let `S` be a class of
characters without the slash that has at least letters, digits, underscore and hyphen.  Every name
over `S` that does not begin with a dot is literal exactly if `S` has none of the nine characters
that are special to the patterns, and not both braces. -/
theorem names_are_literal_iff (S : Char → Prop) (husual : ∀ c, isNameChar c = true → S c)
    (hslash : ¬ S '/') :
    (∀ name : String, name ≠ "" → (∀ c ∈ name.toList, S c) → name.toList.head? ≠ some '.' →
        IsLiteral name) ↔
      (∀ c ∈ ['[', '*', '+', '?', '^', '$', '(', ')', '\\'], ¬ S c) ∧
        ¬ (S '\x7b' ∧ S '\x7d') := by
  constructor
  · intro hliteral
    have hspoils {cs : List Char} {name : String} (h : spoils cs name = true) :
        ¬ ∀ c ∈ cs, S c := by
      intro hcs
      obtain ⟨h0, hchars, hdot, hnot⟩ := exists_not_isLiteral husual hcs h
      exact hnot (hliteral name h0 hchars hdot)
    constructor
    · intro c hc hS
      obtain ⟨⟨c', name⟩, he, rfl⟩ := List.mem_map.1 (show c ∈ spoiled.map Prod.fst from hc)
      exact hspoils (List.all_eq_true.1 spoils_spoiled _ he) (by simpa using hS)
    · intro hboth
      exact hspoils spoils_braced (by simpa using hboth)
  · rintro ⟨hspecial, hbraces⟩ name h0 hname hdot
    refine isLiteral_of_isVerbatim h0 (fun h => hslash (hname _ h)) hdot (fun c hc => ?_) ?_
    · rw [isVerbatim, decide_eq_true_iff]
      exact fun hm => hspecial c hm (hname c hc)
    · by_contra hboth
      rw [not_or, not_not, not_not] at hboth
      exact hbraces ⟨hname _ hboth.1, hname _ hboth.2⟩

/-- the usual characters, and a few that do no harm -/
def isHarmless (c : Char) : Bool := isNameChar c || ['.', '|', ' ', ',', '\x7b'].contains c

/-- a dot, a bar, a blank and an opening brace do no harm, even together -/
theorem odd_name_is_literal : IsLiteral "v1.2|b \x7b3,4" := by
  have hspecial : ['[', '*', '+', '?', '^', '$', '(', ')', '\\'].all (!isHarmless ·) = true := by
    decide +kernel
  have hname : "v1.2|b \x7b3,4".toList.all isHarmless = true := by decide +kernel
  have hliteral := (names_are_literal_iff (fun c => isHarmless c = true)
    (fun c hc => by rw [isHarmless, hc, Bool.true_or]) (by decide +kernel)).2
    ⟨by simpa using hspecial, by decide +kernel⟩
  exact hliteral _ (by simp) (List.all_eq_true.1 hname) (by simp)

/-- a plus stands for a repetition, so the circuit is not selected -/
theorem plus_is_not_literal :
    Alone "a+b" 3 (simulated "a+b") "local_sim" .null (soleCircuit "a+b") ∧
      ((run (simulated "a+b") 3).perform (soleCircuit "a+b")).1 = .error .noCircuitFile := by
  have halone := alone_soleCircuit (show Tree.IsName "a+b" by decide +kernel)
  have hlisting : (simulatedPlan "a+b").listing (soleCircuit "a+b") = ["a+b/a+b_n3.qasm"] := by
    decide +kernel
  have hanswer : (simulatedPlan "a+b").answer "a+b/a+b_n3.qasm" = .ok false :=
    ok_of_toOption (by decide +kernel)
  have hplan : (simulated "a+b").plan 3 = .ok (simulatedPlan "a+b") := rfl
  refine ⟨halone, ?_⟩
  rw [run_eq_noCircuitFile_iff hplan halone.simulated rfl halone.smooth, hlisting]
  simp [hanswer]

end CircuitBench.Bench
