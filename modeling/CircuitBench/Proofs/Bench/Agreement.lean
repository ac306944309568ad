import CircuitBench.Proofs.Bench.Summary
import CircuitBench.Proofs.Bench.Verification
import CircuitBench.Proofs.Generate.Acceptance
import CircuitBench.Proofs.Generate.Limit

/-!
# Generated files are found

The generators, the summary and the runs of a benchmark agree on the names of files.  A generator
that has what it needs (`Makes`) ends well and writes its file (`Makes.delivers`), so generators
that run one after the other in an empty directory leave a directory that holds the file of every
number of qubits once (`perform_forM_makes`).  In such a directory the listed files of a number of
qubits are the one file of that number, if it is there (`filter_listing_numbered`).

`generated_files_are_found` says what the summary prints then and what a run loads.
-/

namespace CircuitBench.Bench

/-! ## generating -/

/-- the job is one of a generator for the circuit of `n` qubits of a benchmark -/
inductive Makes : (name : String) → (n : Nat) → Job Unit → Prop
  | given (n : Nat) (hn : 1 ≤ n) (s : String) (hs : HiddenString.Hideable n s)
      (prob : Given Number) (picture : Bool) :
      Makes "bv" n
        (Generate.HiddenString.generate (.value n) (some (.value s)) prob picture none)
  | drawn (n : Nat) (hn : 1 ≤ n) (p : Number) (picture : Bool) :
      Makes "bv" n (Generate.HiddenString.generate (.value n) none (.value p) picture none)
  | counterfeitCoin (coins : Nat) (hcoins : 1 ≤ coins) (coin : Given Int) (picture : Bool) :
      Makes "cc" (coins + 1) (Generate.CounterfeitCoin.generate (.value coins) coin picture none)
  | fourier (n : Nat) (hn : 1 ≤ n) (hlimit : n ≤ 1024) :
      Makes "qft" n (Generate.Fourier.generate (.value "qft") (.value n))

theorem programPath_natCast (name : String) (n : Nat) :
    Generate.programPath name n = numbered name n "" := by
  have hnumeral : toString (n : Int) = toString n := String.toList_injective (toList_ofNat n)
  rw [Generate.programPath, numbered, hnumeral, String.append_empty]
  rfl

theorem Makes.delivers {name : String} {n : Nat} {job : Job Unit} (h : Makes name n job) :
    Job.Delivers (numbered name n "") job := by
  rw [← programPath_natCast]
  cases h with
  | given _ _ s hs prob picture =>
    exact Generate.HiddenString.delivers_generate_some hs prob picture
  | drawn _ hn p picture =>
    exact Generate.HiddenString.delivers_generate_none (by omega) p picture
  | counterfeitCoin coins _ coin picture =>
    exact Generate.CounterfeitCoin.delivers_generate coins coin picture
  | fourier _ _ hlimit => exact Generate.Fourier.delivers_generate (by omega) "qft"

/-- the names of the benchmarks are plain, and without a mark -/
theorem Makes.name_plain {name : String} {n : Nat} {job : Job Unit} (h : Makes name n job) :
    name ≠ "" ∧ (∀ c ∈ name.toList, Pattern.isNameChar c = true) ∧ '_' ∉ name.toList := by
  have hplain : ∀ name ∈ ["bv", "cc", "qft"], name ≠ "" ∧
      name.toList.all Pattern.isNameChar = true ∧ '_' ∉ name.toList := by decide +kernel
  have hmem : name ∈ ["bv", "cc", "qft"] := by
    cases h with
    | given => decide
    | drawn => decide
    | counterfeitCoin => decide
    | fourier => decide
  obtain ⟨h0, hname, hmark⟩ := hplain name hmem
  exact ⟨h0, List.all_eq_true.1 hname, hmark⟩

theorem Numbered.putEntry {name : String} {numbers : Finset Nat} {es : List (String × Tree)}
    (h : Numbered name numbers es) (n : Nat) (t : Tree) :
    Numbered name (insert n numbers) (Tree.putEntry (numbered name n "") t es) where
  nodup := Tree.nodup_keys_putEntry h.nodup
  mem := by
    intro file
    rw [Tree.mem_keys_putEntry, h.mem]
    simp

theorem isName_numbered {name : String} (hname : ∀ c ∈ name.toList, Pattern.isNameChar c = true)
    {n : Nat} (hsize : (numbered name n "").utf8ByteSize ≤ Tree.nameLimit) :
    Tree.IsName (numbered name n "") := by
  have hmark : '_' ∈ (numbered name n "").toList := by simp [toList_numbered_plain]
  have hne {s : String} (hs : '_' ∉ s.toList) : numbered name n "" ≠ s := by
    rintro rfl
    exact hs hmark
  refine ⟨hne (by decide), hne (by decide), hne (by decide), slash_notMem_numbered hname n, ?_,
    hsize⟩
  intro h
  rcases isNameChar_numbered hname h with hc | hc
  · exact absurd hc (by decide)
  · exact absurd hc (by decide)

/-- generators one after the other: every one finds room for its file, and leaves room for the
files of the others -/
theorem perform_forM_makes {name : String} {jobs : List (Nat × Job Unit)}
    (hmakes : ∀ j ∈ jobs, Makes name j.1 j.2)
    (hshort : ∀ j ∈ jobs, (numbered name j.1 "").utf8ByteSize ≤ Tree.nameLimit) {τ : Session}
    {es : List (String × Tree)} (htree : τ.tree = .dir es)
    (hroom : ∀ n, Tree.Room τ.tree [] (numbered name n "")) {numbers : Finset Nat}
    (hes : Numbered name numbers es) :
    ∃ τ' es', (jobs.forM fun j => j.2).perform τ = (.ok (), τ') ∧ τ'.tree = .dir es' ∧
      Numbered name (numbers ∪ (jobs.map Prod.fst).toFinset) es' := by
  induction jobs generalizing τ es numbers with
  | nil => exact ⟨τ, es, rfl, htree, by simpa using hes⟩
  | cons j jobs ih =>
    obtain ⟨hj, hjobs⟩ := List.forall_mem_cons.1 hmakes
    obtain ⟨hsize, hsizes⟩ := List.forall_mem_cons.1 hshort
    have htarget := Tree.Target.of_name (isName_numbered hj.name_plain.2.1 hsize) (hroom j.1)
    obtain ⟨_, υ, text, hrun, hput⟩ := hj.delivers τ _ htarget.writable
    have hroom' (n : Nat) : Tree.Room υ.tree [] (numbered name n "") := by
      rw [hput]
      exact (hroom j.1).put (hroom n) _
    rw [htree] at hput
    obtain ⟨τ', es', hrest, htree', hes'⟩ := ih hjobs hsizes hput hroom' (hes.putEntry j.1 _)
    refine ⟨τ', es', (Job.perform_bind_ok hrun).trans hrest, htree', ?_⟩
    simpa [Finset.union_insert] using hes'

/-! ## running -/

/-- which entries belong to a number: the file of the number and no other -/
theorem exists_belongs_iff {name : String} (hmark : '_' ∉ name.toList) {numbers : Finset Nat}
    {es : List (String × Tree)} (hnumbered : Numbered name numbers es) {depth : Int}
    (hdepth : depth ≤ 0) (q : Nat) (file : String) :
    (∃ e ∈ es, file = name ++ "/" ++ e.1 ∧ belongs (stem name q depth) e.1) ↔
      q ∈ numbers ∧ file = name ++ "/" ++ numbered name q "" := by
  have hbelongs (n : Nat) : belongs (stem name q depth) (numbered name n "") ↔ (q : Int) = n :=
    belongs_numbered_iff hdepth q (by simp) (numbered_once hmark n)
  rw [hnumbered.exists_iff fun f => file = name ++ "/" ++ f ∧ belongs (stem name q depth) f]
  simp only [hbelongs, Nat.cast_inj]
  constructor
  · rintro ⟨n, hn, hfile, rfl⟩
    exact ⟨hn, hfile⟩
  · rintro ⟨hq, hfile⟩
    exact ⟨q, hq, hfile, rfl⟩

section
variable {name : String} (h0 : name ≠ "") (hname : ∀ c ∈ name.toList, Pattern.isNameChar c = true)
  (hmark : '_' ∉ name.toList) {numbers : Finset Nat} {es : List (String × Tree)}
  (hnumbered : Numbered name numbers es)
include h0 hname hmark hnumbered

/-- of the listed files the text patterns select the one of the number, if it is there -/
theorem filter_listing_numbered {p : Plan} (hp : p.name = name) (hdepth : p.depth ≤ 0) {q : Nat}
    (hq : p.qubits = q) {σ : Session} (hes : σ.tree.lookup name = .ok (.dir es))
    (horder : ∀ paths, (σ.order paths).Perm paths) :
    ∃ selected : String → Bool,
      (∀ f ∈ p.listing σ,
        selects (stem p.name p.qubits p.depth) (Path.baseName f) = .ok (selected f)) ∧
      (p.listing σ).filter selected
        = if q ∈ numbers then [name ++ "/" ++ numbered name q ""] else [] := by
  have hplain := hnumbered.plainNames hname
  have hperm : (p.listing σ).Perm (σ.tree.expand (pathPattern name q p.depth)) := by
    rw [Plan.listing, hp, hq]
    exact horder _
  have hlisted (file : String) (hf : file ∈ p.listing σ) :=
    selects_listed h0 hname q p.depth hes hplain (hperm.mem_iff.1 hf)
  choose! selected hsel hiff using hlisted
  have hmem (file : String) : file ∈ (p.listing σ).filter selected ↔
      q ∈ numbers ∧ file = name ++ "/" ++ numbered name q "" := by
    rw [List.mem_filter, ← exists_belongs_iff hmark hnumbered hdepth]
    constructor
    · rintro ⟨hf, h⟩
      exact (hiff file hf).1 h
    · intro h
      have hf : file ∈ p.listing σ := by
        obtain ⟨e, he, hfile, hb⟩ := h
        rw [hperm.mem_iff, mem_expand_iff h0 hname q p.depth hes hplain]
        exact ⟨e, he, hfile, hb.1⟩
      exact ⟨hf, (hiff file hf).2 h⟩
  refine ⟨selected, ?_, ?_⟩
  · rw [hp, hq]
    exact hsel
  · split_ifs with hin
    · have hnodup := hperm.nodup_iff.2 (nodup_expand h0 hname q p.depth hes hplain)
      apply List.perm_singleton.1
      rw [List.perm_ext_iff_of_nodup (hnodup.filter selected) (List.nodup_singleton _)]
      intro file
      rw [hmem, List.mem_singleton]
      exact and_iff_right hin
    · rw [List.eq_nil_iff_forall_not_mem]
      intro file hf
      exact hin ((hmem file).1 hf).1

/-- a run loads the file of its number, if it is there, and nothing else; whether that file is
verified does not matter -/
theorem calls_run_numbered {s : Settings} {p : Plan} {q : Nat} (hplan : s.plan q = .ok p)
    (hp : p.name = name) (hdepth : p.depth ≤ 0) (hlocal : isLocal p.machine = true) {σ : Session}
    (hσ : Smooth σ) (hes : σ.tree.lookup name = .ok (.dir es))
    (horder : ∀ paths, (σ.order paths).Perm paths) :
    ((run s q).perform σ).2.calls = σ.calls ++
      if q ∈ numbers then fileCalls p p.machine (name ++ "/" ++ numbered name q "") else [] := by
  obtain ⟨selected, hsel, hfiles⟩ := filter_listing_numbered h0 hname hmark hnumbered hp hdepth
    (s.plan_eq_ok_iff.1 hplan).1 hes horder
  obtain ⟨r, σ', xs, hrun, hxs, hplans, hends⟩ :=
    runFiles_smooth hlocal selected (p.listing σ) hsel false hσ
  have hrest : xs.map (·.file) = (p.listing σ).filter selected := by
    cases hends with
    | passed hall _ => exact hall
    | refuted fault i file hi _ _ htake =>
      -- there is one file at most, so the one that is refuted is the last
      rw [htake]
      apply List.take_of_length_le
      rw [hfiles]
      split_ifs
      · exact Nat.le_add_left 1 i
      · exact Nat.zero_le _
  have hcalls : xs.flatMap Trial.calls = (xs.map (·.file)).flatMap (fileCalls p p.machine) := by
    rw [List.flatMap_map]
    apply List.flatMap_congr
    intro x hx
    rw [← hplans x hx] at hlocal ⊢
    exact Trial.calls_of_isLocal hlocal
  rw [perform_run hplan, hrun]
  show σ'.calls = _
  rw [hxs.calls, hcalls, hrest, hfiles]
  split_ifs
  · rw [List.flatMap_singleton]
  · rfl

end

/-! ## agreement -/

/-- what is made of a directory that holds the circuits of some numbers of qubits -/
structure Finds (name : String) (numbers : List Nat) (σ : Session) : Prop where
  /-- the summary has a row for each number, in their order, with one file and no depth -/
  summary : ∃ σ', (Summary.summarize name).perform σ = (.ok (), σ') ∧
    σ'.events = σ.events ++ [.printed ("Application : " ++ name ++ "\n" ++ String.join
      (numbers.toFinset.sort.map fun n => "qubit : " ++ toString n ++ " \t  file : 1\n"))]
  /-- a run loads and executes the file of its number, and nothing if there is none -/
  runs : ∀ (s : Settings) (q : Nat) (p : Plan), s.plan q = .ok p → p.name = name → p.depth = 0 →
    isLocal p.machine = true → Smooth σ →
    ((run s q).perform σ).2.calls = σ.calls ++
      if q ∈ numbers then fileCalls p p.machine (name ++ "/" ++ numbered name q "") else []

theorem line_single (n : Nat) :
    (Summary.single n).line = "qubit : " ++ toString n ++ " \t  file : 1\n" := by
  have hend : " \t  file : 1\n" = " \t  file : " ++ (toString 1 ++ "\n") := by decide +kernel
  rw [hend]
  simp only [Summary.Row.line, Summary.single, Option.elim_none, String.append_empty,
    String.append_assoc]

/-- **Generated files are found.**  Generators of a benchmark, run one after the other in an empty
directory, all end well.  In the directory that they leave, the summary has a row for each number of
qubits, and a run for a number of qubits loads the file that was generated for it, or none if none
was. -/
theorem generated_files_are_found (name : String) (jobs : List (Nat × Job Unit)) (hjobs : jobs ≠ [])
    (hmakes : ∀ j ∈ jobs, Makes name j.1 j.2)
    (hshort : ∀ j ∈ jobs, (numbered name j.1 "").utf8ByteSize ≤ Tree.nameLimit) (τ : Session)
    (hempty : τ.tree = .dir []) :
    ∃ τ', (jobs.forM fun j => j.2).perform τ = (.ok (), τ') ∧
      ∀ σ : Session, σ.tree.lookup name = .ok τ'.tree → (∀ paths, (σ.order paths).Perm paths) →
        Finds name (jobs.map Prod.fst) σ := by
  have hnone : Numbered name ∅ [] := ⟨List.nodup_nil, by simp⟩
  have hroom (n : Nat) : Tree.Room τ.tree [] (numbered name n "") := by
    rw [hempty]
    exact ⟨[], rfl, by simp⟩
  obtain ⟨τ', es, hrun, htree, hnumbered⟩ := perform_forM_makes hmakes hshort hempty hroom hnone
  rw [Finset.empty_union] at hnumbered
  refine ⟨τ', hrun, ?_⟩
  intro σ hdirectory horder
  rw [htree] at hdirectory
  obtain ⟨j, hj⟩ := List.exists_mem_of_ne_nil jobs hjobs
  obtain ⟨h0, hname, hmark⟩ := (hmakes j hj).name_plain
  have hnonempty : (jobs.map Prod.fst).toFinset.Nonempty :=
    ⟨j.1, List.mem_toFinset.2 (List.mem_map_of_mem hj)⟩
  have hprint := Summary.perform_summarize h0 hname hmark hnonempty hdirectory hnumbered horder
  rw [Summary.report, List.map_map, Function.comp_def] at hprint
  simp only [line_single] at hprint
  refine ⟨⟨_, hprint, Session.events_say _ _⟩, ?_⟩
  intro s q p hplan hp hdepth hlocal hσ
  have hcalls := calls_run_numbered h0 hname hmark hnumbered hplan hp hdepth.le hlocal hσ
    hdirectory horder
  simpa only [List.mem_toFinset] using hcalls

/-! ## circuits of every benchmark -/

/-- a session whose only directory is that of a benchmark -/
def placed (name : String) (t : Tree) : Session :=
  { Session.initial with tree := .dir [(name, t)] }

theorem lookup_placed {name : String} (hname : Tree.IsName name) (t : Tree) :
    (placed name t).tree.lookup name = .ok t :=
  Tree.lookup_name hname List.lookup_cons_self

/-- the circuit of ten qubits for a given string, and that of one qubit for one that is drawn -/
def hiddenStrings : List (Nat × Job Unit) :=
  [(10, Generate.HiddenString.generate (.value 10) (some (.value "101101011")) .blank true none),
    (1, Generate.HiddenString.generate (.value 1) none (.value (.whole 1)) false none)]

/-- the circuits for two coins, of which the first is false, and for four, of which none is named -/
def coins : List (Nat × Job Unit) :=
  [(3, Generate.CounterfeitCoin.generate (.value 2) (.value 0) false none),
    (5, Generate.CounterfeitCoin.generate (.value 4) .blank false none)]

def transforms : List (Nat × Job Unit) :=
  [(4, Generate.Fourier.generate (.value "qft") (.value 4)),
    (2, Generate.Fourier.generate (.value "qft") (.value 2))]

/-- among the hidden strings the numeral of one number begins that of the other -/
theorem files_of_every_benchmark_are_found :
    (∃ τ, (hiddenStrings.forM fun j => j.2).perform .initial = (.ok (), τ) ∧
      Finds "bv" [10, 1] (placed "bv" τ.tree)) ∧
    (∃ τ, (coins.forM fun j => j.2).perform .initial = (.ok (), τ) ∧
      Finds "cc" [3, 5] (placed "cc" τ.tree)) ∧
    ∃ τ, (transforms.forM fun j => j.2).perform .initial = (.ok (), τ) ∧
      Finds "qft" [4, 2] (placed "qft" τ.tree) := by
  have horder (name : String) (t : Tree) (paths : List String) :
      ((placed name t).order paths).Perm paths := List.mergeSort_perm paths _
  refine ⟨?_, ?_, ?_⟩
  · have hmakes : ∀ j ∈ hiddenStrings, Makes "bv" j.1 j.2 := by
      simp only [hiddenStrings, List.forall_mem_cons]
      exact ⟨.given 10 (by decide) _ (by decide) _ _, .drawn 1 le_rfl _ _, by simp⟩
    obtain ⟨τ, hrun, hfinds⟩ := generated_files_are_found "bv" hiddenStrings (List.cons_ne_nil _ _)
      hmakes (by decide +kernel) .initial rfl
    exact ⟨τ, hrun, hfinds _ (lookup_placed (by decide +kernel) τ.tree) (horder _ _)⟩
  · have hmakes : ∀ j ∈ coins, Makes "cc" j.1 j.2 := by
      simp only [coins, List.forall_mem_cons]
      exact ⟨.counterfeitCoin 2 (by decide) _ _, .counterfeitCoin 4 (by decide) _ _, by simp⟩
    obtain ⟨τ, hrun, hfinds⟩ := generated_files_are_found "cc" coins (List.cons_ne_nil _ _)
      hmakes (by decide +kernel) .initial rfl
    exact ⟨τ, hrun, hfinds _ (lookup_placed (by decide +kernel) τ.tree) (horder _ _)⟩
  · have hmakes : ∀ j ∈ transforms, Makes "qft" j.1 j.2 := by
      simp only [transforms, List.forall_mem_cons]
      exact ⟨.fourier 4 (by decide) (by decide), .fourier 2 (by decide) (by decide), by simp⟩
    obtain ⟨τ, hrun, hfinds⟩ := generated_files_are_found "qft" transforms (List.cons_ne_nil _ _)
      hmakes (by decide +kernel) .initial rfl
    exact ⟨τ, hrun, hfinds _ (lookup_placed (by decide +kernel) τ.tree) (horder _ _)⟩

end CircuitBench.Bench
