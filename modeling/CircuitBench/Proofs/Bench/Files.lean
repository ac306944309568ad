import CircuitBench.Bench.Run
import CircuitBench.Proofs.Bench.Selection

/-!
# The files that a benchmark runs

In a session where every execution goes well (`Smooth`), a file is run by three calls, and the
session stays one where every execution goes well (`perform_runFile`).  So the loop over a listing
runs the files that are selected, one after the other (`calls_runFiles`).

`run_loads_selected_files` says which files of a directory these are, in terms of their names, and
which number of qubits a name of the usual form belongs to.
-/

namespace CircuitBench.Bench

open Pattern

/-! ## one file -/

def ClockReal (σ : Session) : Prop := ∀ t ∈ σ.clock, ∃ x, t = .real x

theorem ClockReal.now {σ : Session} (h : ClockReal σ) :
    ∃ x, (nextOf (.real 0) σ.clock).1 = .real x := by
  rcases List.mem_cons.1 (nextOf_mem (.real 0) σ.clock) with h0 | hm
  · exact ⟨0, h0⟩
  · exact h _ hm

/-- every execution goes well, and the clock gives real numbers -/
structure Smooth (σ : Session) : Prop where
  outcomes : ∀ o ∈ σ.outcomes, ∃ counts time, o = .done "DONE" counts time
  clock : ∀ t ∈ σ.clock, ∃ x, t = .real x

section
variable {σ : Session} (hσ : Smooth σ)
include hσ

theorem Smooth.nextOutcome : ∃ counts time,
    (nextOf .plain σ.outcomes).1 = .done doneStatus counts time := by
  rcases List.mem_cons.1 (nextOf_mem .plain σ.outcomes) with h | h
  · exact ⟨[], none, h⟩
  · exact hσ.outcomes _ h

theorem Smooth.now : ∃ x, (nextOf (.real 0) σ.clock).1 = .real x := ClockReal.now hσ.clock

end

theorem isRemote_of_isLocal {backend : String} (h : isLocal backend = true) :
    isRemote backend = false := by
  rw [isLocal, String.startsWith_string_iff] at h
  rw [isRemote, String.startsWith_string_eq_false_iff]
  intro h'
  obtain ⟨t, ht⟩ := h
  obtain ⟨t', ht'⟩ := h'
  rw [← ht'] at ht
  cases ht

theorem perform_access {backend : String} (h : isLocal backend = true) (σ : Session) :
    (access backend).perform σ = (.ok (), σ) := by
  rw [access, isRemote_of_isLocal h, h]
  rfl

theorem timeText_of_isLocal {backend : String} (h : isLocal backend = true) (reported : Option Json)
    (elapsed : Number) : timeText backend reported elapsed = .ok elapsed.text := by
  simp [timeText, isRemote_of_isLocal h]

def fileCalls (p : Plan) (backend file : String) : List Call :=
  [.program, .load file p.name, .execute ⟨[p.name], backend, 1, 5, 86400, p.seed⟩]

theorem perform_runFile {p : Plan} {backend : String} (hb : p.backend = .value backend)
    (hlocal : isLocal backend = true) (hv : p.verify = false) (file : String) {σ : Session}
    (hσ : Smooth σ) :
    ∃ σ', (runFile p file).perform σ = (.ok true, σ') ∧ Smooth σ' ∧
      σ'.calls = σ.calls ++ fileCalls p backend file := by
  obtain ⟨x, hx⟩ := hσ.now
  obtain ⟨counts, time, ho⟩ := hσ.nextOutcome
  have hσ' : Smooth { σ with clock := (nextOf (.real 0) σ.clock).2 } :=
    ⟨hσ.outcomes, fun t ht => hσ.clock t (mem_of_mem_nextOf ht)⟩
  obtain ⟨y, hy⟩ := hσ'.now
  have hsub : Number.sub (.real y) (.real x) = .ok (.real (y - x)) := rfl
  have htime : timeText backend time (.real (y - x)) = .ok (Number.text (.real (y - x))) :=
    timeText_of_isLocal hlocal time _
  refine ⟨{ σ with
    clock := (nextOf (.real 0) (nextOf (.real 0) σ.clock).2).2
    outcomes := (nextOf .plain σ.outcomes).2
    past := [.printed (p.record backend (Number.text (.real (y - x))) ++ "\n"),
      .call (.execute (p.execution backend)), .call (.load file p.name), .call .program]
        ++ σ.past }, ?_, ?_, ?_⟩
  · rw [runFile, hb]
    simp only [Job.perform_bind, Job.perform_call, Job.perform_given, perform_access hlocal,
      Job.perform_now, Job.perform_nextOutcome, ho, hx, hy, hsub, Job.perform_lift, htime, hv]
    rw [if_neg (not_not.2 rfl)]
    rfl
  · exact ⟨fun o h => hσ.outcomes o (mem_of_mem_nextOf h),
      fun t h => hσ'.clock t (mem_of_mem_nextOf h)⟩
  · simp [Session.calls, Session.events, Event.call?, fileCalls, Plan.execution, timeLimit]

/-! ## the loop -/

/-- the selected files are run one after the other, whatever the loop ends with -/
theorem calls_runFiles {p : Plan} {backend : String} (hb : p.backend = .value backend)
    (hlocal : isLocal backend = true) (hv : p.verify = false) (selected : String → Bool)
    (files : List String)
    (hsel : ∀ f ∈ files,
      selects (stem p.name p.qubits p.depth) (Path.baseName f) = .ok (selected f)) :
    ∀ (ran : Bool) (σ : Session), Smooth σ →
      ((runFiles p ran files).perform σ).2.calls
        = σ.calls ++ (files.filter selected).flatMap (fileCalls p backend) := by
  induction files with
  | nil =>
    intro ran σ _
    rw [List.filter_nil, List.flatMap_nil, List.append_nil]
    cases ran <;> rfl
  | cons f fs ih =>
    intro ran σ hσ
    have ih := ih fun g hg => hsel g (List.mem_cons_of_mem f hg)
    rw [runFiles, hsel f List.mem_cons_self, Job.perform_bind, Job.perform_lift]
    -- `ran` counts at the end of the listing only, so the two calls of the loop are alike here
    cases hf : selected f with
    | false =>
      rw [List.filter_cons_of_neg (by simp [hf])]
      exact ih false σ hσ
    | true =>
      obtain ⟨σ', hrun, hσ', hcalls⟩ := perform_runFile hb hlocal hv f hσ
      rw [List.filter_cons_of_pos hf, List.flatMap_cons]
      show ((runFile p f >>= fun went => if went then runFiles p true fs else pure false).perform
        σ).2.calls = _
      rw [Job.perform_bind, hrun]
      show ((runFiles p true fs).perform σ').2.calls = _
      rw [ih true σ' hσ', hcalls, List.append_assoc]

/-! ## the names of the files -/

/-- begins with the stem, ends with the extension, and has the stem standing free -/
def belongs (stem name : String) : Prop :=
  (∃ middle, name.toList = stem.toList ++ middle ++ extension) ∧
    standsFree stem.toList name.toList

/-- the names of a directory differ, hold no slash, and are ASCII texts of one line -/
structure PlainNames (es : List (String × Tree)) : Prop where
  nodup : (es.map Prod.fst).Nodup
  slash : ∀ e ∈ es, '/' ∉ e.1.toList
  ascii : ∀ e ∈ es, ∀ c ∈ e.1.toList, c.toNat < 128 ∧ c ≠ '\n'

theorem slash_injective (dir : String) :
    Function.Injective fun name : String => dir ++ "/" ++ name := by
  intro a b h
  have h := congrArg String.toList h
  simp only [Path.toList_slash] at h
  exact String.toList_injective (List.cons.inj (List.append_cancel_left h)).2

section
variable {name : String} (h0 : name ≠ "") (hname : ∀ c ∈ name.toList, isNameChar c = true)
  (qubits depth : Int) {t : Tree} {es : List (String × Tree)}
  (hes : t.lookup name = .ok (.dir es)) (hplain : PlainNames es)
include h0 hname hes hplain

theorem mem_expand_iff (file : String) :
    file ∈ t.expand (pathPattern name qubits depth) ↔
      ∃ e ∈ es, file = name ++ "/" ++ e.1 ∧
        ∃ middle, e.1.toList = (stem name qubits depth).toList ++ middle ++ extension := by
  rw [expand_pathPattern h0 hname qubits depth hes hplain.slash, List.mem_map]
  simp only [List.mem_filter, nameFits_stem hname]
  constructor
  · rintro ⟨e, ⟨he, hm⟩, rfl⟩
    exact ⟨e, he, rfl, hm⟩
  · rintro ⟨e, he, rfl, hm⟩
    exact ⟨e, ⟨he, hm⟩, rfl⟩

theorem nodup_expand : (t.expand (pathPattern name qubits depth)).Nodup := by
  rw [expand_pathPattern h0 hname qubits depth hes hplain.slash]
  have hsub := (List.filter_sublist
    (p := fun e => Tree.nameFits (stem name qubits depth ++ "*.qasm") e.1) (l := es)).map Prod.fst
  have hn := (hplain.nodup.sublist hsub).map (slash_injective name)
  rwa [List.map_map] at hn

/-- the text patterns give an answer for every listed file: whether its name belongs to the stem -/
theorem selects_listed {file : String} (hf : file ∈ t.expand (pathPattern name qubits depth)) :
    ∃ b, selects (stem name qubits depth) (Path.baseName file) = .ok b ∧
      (b = true ↔ ∃ e ∈ es, file = name ++ "/" ++ e.1 ∧ belongs (stem name qubits depth) e.1) := by
  obtain ⟨e, he, rfl, middle, hm⟩ := (mem_expand_iff h0 hname qubits depth hes hplain file).1 hf
  rw [Path.baseName_slash (hplain.slash e he)]
  obtain ⟨b, hb, hiff⟩ := selects_iff (isNameChar_stem hname qubits depth)
    (stem_last_digit qubits depth) (hplain.ascii e he) ⟨_, hm⟩
  refine ⟨b, hb, hiff.trans ⟨fun h => ⟨e, he, rfl, ⟨middle, hm⟩, h⟩, ?_⟩⟩
  rintro ⟨e', _, hee, hb'⟩
  rw [slash_injective name hee]
  exact hb'.2

end

/-! ## names of the usual form -/

/-- the name of the benchmark with a number of qubits, and something between it and the
extension -/
def numbered (name : String) (k : Nat) (rest : String) : String :=
  name ++ "_n" ++ toString k ++ rest ++ ".qasm"

theorem toList_numbered (name : String) (k : Nat) (rest : String) :
    (numbered name k rest).toList
      = (name ++ "_n").toList ++ k.repr.toList ++ (rest.toList ++ extension) := by
  rw [numbered, String.toList_append, String.toList_append, String.toList_append,
    List.append_assoc _ rest.toList]
  rfl

theorem toList_stem_of_depth {depth : Int} (hd : depth ≤ 0) (name : String) (qubits : Int) :
    (stem name qubits depth).toList = (name ++ "_n").toList ++ (toString qubits).toList := by
  rw [toList_stem, if_neg (by omega), List.append_nil, String.toList_append]
  rfl

/-- digits end where something stands that is no digit -/
theorem takeWhile_digits {ds rest : List Char} (hds : ∀ c ∈ ds, Text.isAsciiDigit c = true)
    (hrest : ∀ c ∈ rest.head?, Text.isAsciiDigit c = false) :
    (ds ++ rest).takeWhile Text.isAsciiDigit = ds := by
  rw [List.takeWhile_append_of_pos hds]
  cases rest with
  | nil => simp
  | cons c rest =>
    have hc := hrest c rfl
    rw [List.takeWhile_cons_of_neg (by simp [hc]), List.append_nil]

/-- digits before something that is no digit can be told from the text -/
theorem digits_inj {ds es rest rest' : List Char} (hds : ∀ c ∈ ds, Text.isAsciiDigit c = true)
    (hes : ∀ c ∈ es, Text.isAsciiDigit c = true)
    (hr : ∀ c ∈ rest.head?, Text.isAsciiDigit c = false)
    (hr' : ∀ c ∈ rest'.head?, Text.isAsciiDigit c = false) (h : ds ++ rest = es ++ rest') :
    ds = es := by
  rw [← takeWhile_digits hds hr, h, takeWhile_digits hes hr']

/-- such a name belongs to its own number of qubits -/
theorem belongs_numbered {name : String} {depth : Int} (hd : depth ≤ 0) {k : Nat} {rest : String}
    (hr : ∀ c ∈ rest.toList.head?, Text.isAsciiDigit c = false) :
    belongs (stem name k depth) (numbered name k rest) := by
  have hmiddle : (numbered name k rest).toList
      = (stem name k depth).toList ++ rest.toList ++ extension := by
    rw [toList_numbered, toList_stem_of_depth hd, List.append_assoc _ rest.toList]
    exact congrArg (_ ++ · ++ _) (toList_ofNat k).symm
  refine ⟨⟨rest.toList, hmiddle⟩, @standsFree_of_extension _ _ [] rest.toList [] hr ?_⟩
  rw [hmiddle, List.nil_append, List.append_nil]

/-- such a name belongs to its own number of qubits and to no other -/
theorem belongs_numbered_iff {name : String} {depth : Int} (hd : depth ≤ 0) (qubits : Int)
    {k : Nat} {rest : String} (hr : ∀ c ∈ rest.toList.head?, Text.isAsciiDigit c = false)
    (honce : ∀ before after, (numbered name k rest).toList
      = before ++ (name ++ "_n").toList ++ after → before = []) :
    belongs (stem name qubits depth) (numbered name k rest) ↔ qubits = k := by
  have hk : ∀ c ∈ k.repr.toList, Text.isAsciiDigit c = true := fun c => isAsciiDigit_of_mem_repr
  constructor
  · rintro ⟨_, before, c, after, he, hc⟩
    rw [toList_stem_of_depth hd] at he
    obtain rfl : before = [] := by
      apply honce before ((toString qubits).toList ++ c :: after)
      rw [he]
      simp only [List.append_assoc]
    rw [toList_numbered, List.nil_append, List.append_assoc, List.append_assoc] at he
    have he := List.append_cancel_left he
    have hafter : ∀ d ∈ (c :: after).head?, Text.isAsciiDigit d = false := by
      intro d hd
      rwa [← Option.some.inj hd]
    cases qubits with
    | ofNat m =>
      rw [toList_ofNat] at he
      have hm := digits_inj hk (fun d => isAsciiDigit_of_mem_repr) (head_extension hr) hafter he
      rw [Nat.repr_injective (String.toList_injective hm)]
      rfl
    | negSucc m =>
      -- the number in the name does not begin with a hyphen
      exfalso
      obtain ⟨d, ds, hds⟩ := List.exists_cons_of_ne_nil (repr_ne_nil k)
      rw [toList_negSucc, hds] at he
      have hd : Text.isAsciiDigit d = true := hk d (hds ▸ List.mem_cons_self)
      rw [(List.cons.inj he).1] at hd
      cases hd
  · rintro rfl
    exact belongs_numbered hd hr

/-! ## a whole run -/

theorem calls_run {s : Settings} {name backend : String} {depth : Int} {seed : Json}
    (hn : s.name = .value name) (hb : s.backend = .value backend)
    (hnumbers : s.numbers = .ok (depth, seed)) (hv : s.verify.truthy = false)
    (hlocal : isLocal backend = true) (qubits : Int) {σ : Session} (hσ : Smooth σ)
    (selected : String → Bool)
    (hsel : ∀ f ∈ σ.order (σ.tree.expand (pathPattern name qubits depth)),
      selects (stem name qubits depth) (Path.baseName f) = .ok (selected f)) :
    ((run s qubits).perform σ).2.calls = σ.calls
      ++ ((σ.order (σ.tree.expand (pathPattern name qubits depth))).filter selected).flatMap
          (fileCalls ⟨name, .value backend, qubits, depth, seed, false⟩ backend) := by
  let p : Plan := ⟨name, .value backend, qubits, depth, seed, false⟩
  have hplan : s.plan qubits = .ok p := by
    rw [Settings.plan, hnumbers, hn, hb, hv]
    rfl
  rw [run, hplan, Job.perform_bind, Job.perform_lift]
  show ((if (σ.order (σ.tree.expand (pathPattern name qubits depth))).isEmpty then
      throw .noCircuitFile
    else runFiles p false (σ.order (σ.tree.expand (pathPattern name qubits depth))) :
      Job Bool).perform σ).2.calls = _
  split
  · rename_i h
    rw [List.isEmpty_iff.1 h, List.filter_nil, List.flatMap_nil, List.append_nil]
    rfl
  · exact calls_runFiles (p := p) rfl hlocal rfl selected _ hsel false σ hσ

/-- **The files that are run.**  For a directory with plain names, a local backend and executions
that go well, the selected files are loaded and executed, each once and in the order of the listing;
they are the ones whose names belong to the stem.  A name of the usual form is run for its own
number of qubits and for no other. -/
theorem run_loads_selected_files (s : Settings) (name backend : String) (qubits depth : Int)
    (seed : Json) (σ : Session) (es : List (String × Tree)) (h0 : name ≠ "")
    (hname : ∀ c ∈ name.toList, isNameChar c = true) (hn : s.name = .value name)
    (hb : s.backend = .value backend) (hlocal : isLocal backend = true)
    (hnumbers : s.numbers = .ok (depth, seed)) (hv : s.verify.truthy = false)
    (hes : σ.tree.lookup name = .ok (.dir es)) (hplain : PlainNames es)
    (horder : ∀ paths, (σ.order paths).Perm paths) (hσ : Smooth σ) :
    ∃ files : List String,
      ((run s qubits).perform σ).2.calls = σ.calls ++ files.flatMap
        (fileCalls ⟨name, .value backend, qubits, depth, seed, false⟩ backend) ∧
      files.Sublist (σ.order (σ.tree.expand (pathPattern name qubits depth))) ∧
      files.Nodup ∧
      (∀ file, file ∈ files ↔
        ∃ e ∈ es, file = name ++ "/" ++ e.1 ∧ belongs (stem name qubits depth) e.1) ∧
      (depth ≤ 0 → ∀ (k : Nat) (rest : String),
        (∀ c ∈ rest.toList.head?, Text.isAsciiDigit c = false) →
        (∀ before after, (numbered name k rest).toList
          = before ++ (name ++ "_n").toList ++ after → before = []) →
        numbered name k rest ∈ es.map Prod.fst →
        (name ++ "/" ++ numbered name k rest ∈ files ↔ qubits = k)) := by
  let listing := σ.order (σ.tree.expand (pathPattern name qubits depth))
  have hperm : listing.Perm (σ.tree.expand (pathPattern name qubits depth)) := horder _
  let selected (file : String) : Bool :=
    (selects (stem name qubits depth) (Path.baseName file)).toOption.getD false
  have hsel {file : String} (hf : file ∈ listing) :
      selects (stem name qubits depth) (Path.baseName file) = .ok (selected file) ∧
        (selected file = true ↔
          ∃ e ∈ es, file = name ++ "/" ++ e.1 ∧ belongs (stem name qubits depth) e.1) := by
    obtain ⟨b, hb, hiff⟩ := selects_listed h0 hname qubits depth hes hplain (hperm.mem_iff.1 hf)
    have hselected : selected file = b := by
      show (selects _ _).toOption.getD false = b
      rw [hb]
      rfl
    rw [hselected]
    exact ⟨hb, hiff⟩
  have hmem (file : String) : file ∈ listing.filter selected ↔
      ∃ e ∈ es, file = name ++ "/" ++ e.1 ∧ belongs (stem name qubits depth) e.1 := by
    rw [List.mem_filter]
    constructor
    · rintro ⟨hf, h⟩
      exact (hsel hf).2.1 h
    · rintro ⟨e, he, rfl, hbelongs⟩
      have hf : name ++ "/" ++ e.1 ∈ listing := by
        rw [hperm.mem_iff, mem_expand_iff h0 hname qubits depth hes hplain]
        exact ⟨e, he, rfl, hbelongs.1⟩
      exact ⟨hf, (hsel hf).2.2 ⟨e, he, rfl, hbelongs⟩⟩
  refine ⟨listing.filter selected, ?_, List.filter_sublist, ?_, hmem, ?_⟩
  · exact calls_run hn hb hnumbers hv hlocal qubits hσ selected fun f hf => (hsel hf).1
  · exact (hperm.nodup_iff.2 (nodup_expand h0 hname qubits depth hes hplain)).filter _
  · intro hd k rest hr honce hin
    obtain ⟨e, he, hek⟩ := List.mem_map.1 hin
    rw [hmem, ← belongs_numbered_iff hd qubits hr honce]
    constructor
    · rintro ⟨e', _, hee, h⟩
      rwa [slash_injective name hee]
    · intro h
      exact ⟨e, he, by rw [hek], by rwa [hek]⟩

/-- two circuits of five qubits and one of fifty -/
def shelf : List (String × Tree) :=
  ["bv_n5.qasm", "bv_n50.qasm", "bv_n5_d3.qasm"].map fun name => (name, .file (.text ""))

theorem run_loads_five_qubit_files :
    ∃ files : List String,
      ((run ⟨.value "bv", .value "local_simulator", .num (.whole 0), .null, .bool false⟩
          5).perform { Session.initial with tree := .dir [("bv", .dir shelf)] }).2.calls
        = files.flatMap (fileCalls ⟨"bv", .value "local_simulator", 5, 0, .null, false⟩
            "local_simulator") ∧
      "bv/bv_n5.qasm" ∈ files ∧ "bv/bv_n5_d3.qasm" ∈ files ∧ "bv/bv_n50.qasm" ∉ files := by
  have hname : "bv".toList.all isNameChar = true := rfl
  have hlocal : isLocal "local_simulator" = true := by
    rw [isLocal, String.startsWith_string_iff]
    exact ⟨"_simulator".toList, rfl⟩
  have hascii : shelf.all (fun e => e.1.toList.all fun c => decide (c.toNat < 128 ∧ c ≠ '\n'))
      = true := rfl
  have hplain : PlainNames shelf := ⟨by decide, by decide, by simpa using hascii⟩
  have hlookup : (Tree.dir [("bv", .dir shelf)]).lookup "bv" = .ok (.dir shelf) := by
    rw [Tree.lookup, Tree.locate]
    rfl
  obtain ⟨files, hcalls, _, _, _, hfiles⟩ := run_loads_selected_files
    ⟨.value "bv", .value "local_simulator", .num (.whole 0), .null, .bool false⟩
    "bv" "local_simulator" 5 0 .null { Session.initial with tree := .dir [("bv", .dir shelf)] }
    shelf (by decide) (List.all_eq_true.1 hname) rfl rfl hlocal rfl rfl hlookup hplain
    (fun paths => List.mergeSort_perm paths _)
    ⟨by simp [Session.initial], by simp [Session.initial]⟩
  -- the letter that begins the name of the benchmark stands nowhere else
  have honce {k : Nat} {rest : String} (hb : (numbered "bv" k rest).toList.count 'b' = 1)
      (before after : List Char)
      (h : (numbered "bv" k rest).toList = before ++ ("bv" ++ "_n").toList ++ after) :
      before = [] := by
    have hbefore : before.count 'b' = 0 := by
      rw [h, List.count_append, List.count_append] at hb
      have hn : ("bv" ++ "_n").toList.count 'b' = 1 := rfl
      omega
    cases before with
    | nil => rfl
    | cons c cs =>
      have hc : 'b' = c := by
        rw [toList_numbered] at h
        exact (List.cons.inj h).1
      rw [← hc, List.count_cons_self] at hbefore
      omega
  refine ⟨files, hcalls, ?_, ?_, ?_⟩
  · exact (hfiles le_rfl 5 "" (by simp) (honce rfl) (by decide)).2 rfl
  · exact (hfiles le_rfl 5 "_d3" (by simp [Text.isAsciiDigit]) (honce rfl) (by decide)).2 rfl
  · intro h
    exact absurd ((hfiles le_rfl 50 "" (by simp) (honce rfl) (by decide)).1 h) (by decide)

end CircuitBench.Bench
