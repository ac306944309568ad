import CircuitBench.Proofs.Bench.Marks
import CircuitBench.Proofs.Bench.Table
import CircuitBench.Proofs.Tree.Directory

/-!
# What a summary prints

The circuit files of a directory are the paths that its path lists with `/*.qasm` behind it.  The
path is a pattern itself: without wildcards the listed names are those of the directory
(`listedNames_perm`), with wildcards they can be those of other directories.

`summarize_cases` says all that a summary can come to, if the listed names have numbers.  From it
follow the two main results.

* `uniform_files_are_grouped`   all files have a depth, or none has: the printed rows are the groups
                                of files, in order, however the files are listed;
* `summary_fails_iff`           any mixture: when there is no summary, and what the rows are like if
                                there is one.
-/

namespace CircuitBench.Summary

/-! ## listed names -/

/-- the names of circuit files among the entries of a directory -/
def circuitNames (entries : List (String × Tree)) : List (List Char) :=
  ((entries.map Prod.fst).filter (Tree.nameFits "*.qasm")).map String.toList

theorem listedNames_perm {σ : Session} (hlists : ∀ paths, (σ.order paths).Perm paths)
    {directory : String} {entries : List (String × Tree)}
    (h : σ.tree.Directory directory entries) :
    (listedNames σ directory).Perm (circuitNames entries) := by
  have hsplit : directory ++ "/*.qasm" = directory ++ "/" ++ "*.qasm" := by
    rw [String.append_assoc]
    rfl
  rw [circuitNames, ← Tree.baseNames_expand h (by decide) (by decide), listedNames, hsplit]
  exact (hlists _).map _

theorem listedNames_relist_perm {σ : Session} (hlists : ∀ paths, (σ.order paths).Perm paths)
    {order : List String → List String} (horder : ∀ paths, (order paths).Perm paths)
    (directory : String) :
    (listedNames (σ.relist order) directory).Perm (listedNames σ directory) :=
  ((horder _).trans (hlists _).symm).map _

section
variable {e : Entry} {name : List Char} (h : e.Of name)
include h

theorem Entry.Of.exists_numeral_iff : (∃ d, Numeral DepthMark name d) ↔ e.depth ≠ none := by
  constructor
  · rintro ⟨d, rest, hrest, _⟩
    exact mt h.unmarked ((exists_behind_iff name).1 ⟨rest, hrest⟩)
  · intro hne
    obtain ⟨d, hd⟩ := Option.ne_none_iff_exists'.1 hne
    exact ⟨d, h.depth d hd⟩

theorem Entry.Of.unmarked_iff : Unmarked DepthMark name ↔ e.depth = none := by
  refine ⟨?_, h.unmarked⟩
  intro hno
  by_contra hne
  obtain ⟨d, rest, hrest, _⟩ := h.exists_numeral_iff.2 hne
  exact (exists_behind_iff name).1 ⟨rest, hrest⟩ hno

end

theorem exists_reads_iff (directory : String) (names : List (List Char)) :
    (∃ es, Reads directory names es) ↔ ∀ name ∈ names, ∃ e : Entry, e.Of name := by
  induction names with
  | nil => exact iff_of_true ⟨[], .nil⟩ nofun
  | cons name names ih =>
    rw [List.forall_mem_cons, ← ih]
    constructor
    · rintro ⟨_, hreads⟩
      obtain ⟨e, es, he, hes, rfl⟩ := List.forall₂_cons_left_iff.1 hreads
      exact ⟨⟨e, (ofName_iff directory name e).1 he⟩, es, hes⟩
    · rintro ⟨⟨e, he⟩, es, hes⟩
      exact ⟨e :: es, .cons ((ofName_iff directory name e).2 he) hes⟩

section
variable {directory : String} {names : List (List Char)} {es : List Entry}
  (hreads : Reads directory names es)
include hreads

/-- other orders of the names go along with other orders of the entries -/
theorem Reads.exists_perm {names' : List (List Char)} (hperm : names'.Perm names) :
    ∃ es', Reads directory names' es' ∧ es'.Perm es :=
  List.perm_comp_forall₂ hperm hreads

theorem Reads.unique {es' : List Entry} (hreads' : Reads directory names es') : es' = es :=
  List.right_unique_forall₂' (fun _ _ _ h h' => Except.ok.inj (h.symm.trans h')) hreads' hreads

theorem Reads.eq_nil_iff : es = [] ↔ names = [] := by
  rw [← List.length_eq_zero_iff, ← List.length_eq_zero_iff, List.Forall₂.length_eq hreads]

theorem Reads.forall_iff {P : List Char → Prop} {Q : Entry → Prop}
    (h : ∀ (name : List Char) (e : Entry), e.Of name → (P name ↔ Q e)) :
    (∀ name ∈ names, P name) ↔ ∀ e ∈ es, Q e := by
  induction hreads with
  | nil => simp
  | @cons name e names es hname _ ih =>
    rw [List.forall_mem_cons, List.forall_mem_cons, ih, h name e ((ofName_iff ..).1 hname)]

theorem Reads.uniform_iff :
    Uniform es ↔ (∀ name ∈ names, ∃ d, Numeral DepthMark name d) ∨
      ∀ name ∈ names, Unmarked DepthMark name := by
  rw [Uniform, hreads.forall_iff fun name e he => he.exists_numeral_iff,
    hreads.forall_iff fun name e he => he.unmarked_iff]

end

/-! ## how a summary ends -/

theorem rows_error {directory : String} {names : List (List Char)} {es : List Entry}
    (hreads : Reads directory names es) {fault : Fault} (h : rows directory names = .error fault) :
    fault = if es = [] then .noItem else .noField "depth" := by
  rw [rows, tally] at h
  rcases tallyFrom_cases hreads Counts.nil with ⟨rows', htally, hrows⟩ | ⟨htally, hsteady⟩
  · rw [List.nil_append] at hrows
    rw [htally] at h
    have h : sortRows rows' = .error fault := h
    cases hrows' : rows' with
    | nil =>
      rw [hrows'] at h hrows
      rw [if_pos (not_not.1 (mt hrows.ne_nil_iff.2 (by simp)))]
      exact (Except.error.inj h).symm
    | cons r rs =>
      rw [hrows'] at h hrows
      rw [if_neg (hrows.ne_nil_iff.1 (by simp))]
      rw [sortRows] at h
      split_ifs at h
      exact (Except.error.inj h).symm
  · rw [htally] at h
    have hne : es ≠ [] := by
      rintro rfl
      exact hsteady (by simp [Steady, leader?])
    rw [if_neg hne]
    exact (Except.error.inj h).symm

section
variable {directory : String} {σ : Session} (hexists : σ.tree.pathExists directory = true)
  {es : List Entry} (hreads : Reads directory (listedNames σ directory) es)
include hexists hreads

/-- all that a summary can come to: nothing is listed, the rows are printed, or a depth is missed
before anything is printed -/
theorem summarize_cases :
    (es = [] ∧ (summarize directory).perform σ = (.error .noItem, σ)) ∨
    (es ≠ [] ∧ (Steady es ∧ Led es) ∧ ∃ rs, rows directory (listedNames σ directory) = .ok rs ∧
      (summarize directory).perform σ = (.ok (), σ.say [report directory rs])) ∨
    (es ≠ [] ∧ ¬ (Steady es ∧ Led es) ∧
      (summarize directory).perform σ = (.error (.noField "depth"), σ)) := by
  have hok := rows_eq_ok_iff hreads
  cases hrs : rows directory (listedNames σ directory) with
  | ok rs =>
    obtain ⟨hne, hsl⟩ := hok.1 ⟨rs, hrs⟩
    exact .inr (.inl ⟨hne, hsl, rs, rfl, perform_summarize_ok hexists hrs⟩)
  | error fault =>
    have hprint := perform_summarize_error hexists hrs
    have hno : ¬ (es ≠ [] ∧ Steady es ∧ Led es) := by
      intro h
      obtain ⟨rs, hrs'⟩ := hok.2 h
      rw [hrs'] at hrs
      cases hrs
    rw [rows_error hreads hrs] at hprint
    by_cases hne : es = []
    · rw [if_pos hne] at hprint
      exact .inl ⟨hne, hprint⟩
    · rw [if_neg hne] at hprint
      exact .inr (.inr ⟨hne, fun h => hno ⟨hne, h⟩, hprint⟩)

theorem summarize_eq_ok_iff (hne : es ≠ []) :
    ((summarize directory).perform σ).1 = .ok () ↔ Steady es ∧ Led es := by
  rcases summarize_cases hexists hreads with ⟨hnil, _⟩ | ⟨_, hsl, rs, _, hp⟩ | ⟨_, hsl, hp⟩
  · exact absurd hnil hne
  · rw [hp]
    exact iff_of_true rfl hsl
  · rw [hp]
    exact iff_of_false nofun hsl

theorem summarize_uniform (hne : es ≠ []) (huniform : Uniform es) :
    ∃ rs, Grouped es rs ∧
      (summarize directory).perform σ = (.ok (), σ.say [report directory rs]) := by
  rcases summarize_cases hexists hreads with ⟨hnil, _⟩ | ⟨_, _, rs, hrs, hp⟩ | ⟨_, hsl, _⟩
  · exact absurd hnil hne
  · exact ⟨rs, grouped_rows hreads hrs huniform, hp⟩
  · exact absurd ⟨huniform.steady, huniform.led⟩ hsl

/-- the table of a uniform directory is printed for every order of the listing -/
theorem summarize_relist (hlists : ∀ paths, (σ.order paths).Perm paths) (hne : es ≠ [])
    (huniform : Uniform es) {rs : List Row} (hrs : Grouped es rs)
    {order : List String → List String} (horder : ∀ paths, (order paths).Perm paths) :
    (summarize directory).perform (σ.relist order)
      = (.ok (), (σ.relist order).say [report directory rs]) := by
  obtain ⟨es', hreads', hperm⟩ :=
    hreads.exists_perm (listedNames_relist_perm hlists horder directory)
  have hne' : es' ≠ [] := by
    rintro rfl
    exact hne (List.nil_perm.1 hperm)
  have huniform' : Uniform es' := by
    rw [Uniform] at huniform ⊢
    simpa only [hperm.mem_iff] using huniform
  obtain ⟨rs', hrs', hp⟩ := summarize_uniform (σ := σ.relist order) hexists hreads' hne' huniform'
  rw [hp, hrs.unique hrs' hperm]

end

/-! ## uniform directories -/

/-- **Files are grouped by their numbers.**  If every listed name has a number of qubits, and all
have a depth or none has, the summary prints a row for every key that occurs, in the strict order
of the keys, with the number of its files; and it prints the same for every order of the listing.
Without wildcards in the path the listed names are those of the directory. -/
theorem uniform_files_are_grouped (directory : String) (σ : Session)
    (hexists : σ.tree.pathExists directory = true)
    (hlists : ∀ paths, (σ.order paths).Perm paths) (hsome : listedNames σ directory ≠ [])
    (hqubits : ∀ name ∈ listedNames σ directory, ∃ q, Numeral QubitMark name q)
    (hdepths : (∀ name ∈ listedNames σ directory, ∃ d, Numeral DepthMark name d) ∨
      ∀ name ∈ listedNames σ directory, Unmarked DepthMark name) :
    (∀ entries, σ.tree.Directory directory entries →
      (listedNames σ directory).Perm (circuitNames entries)) ∧
    ∃ (es : List Entry) (rs : List Row),
      List.Forall₂ (fun name e => e.Of name) (listedNames σ directory) es ∧ Grouped es rs ∧
      (summarize directory).perform σ = (.ok (), σ.say [report directory rs]) ∧
      ∀ order : List String → List String, (∀ paths, (order paths).Perm paths) →
        (summarize directory).perform (σ.relist order)
          = (.ok (), (σ.relist order).say [report directory rs]) := by
  refine ⟨fun entries h => listedNames_perm hlists h, ?_⟩
  obtain ⟨es, hreads⟩ := (exists_reads_iff directory (listedNames σ directory)).2 (by
    intro name hname
    rw [exists_of_iff]
    refine ⟨hqubits name hname, ?_⟩
    rcases hdepths with h | h
    · exact .inr (h name hname)
    · exact .inl (h name hname))
  have hne : es ≠ [] := mt hreads.eq_nil_iff.1 hsome
  have huniform : Uniform es := hreads.uniform_iff.2 hdepths
  obtain ⟨rs, hrs, hp⟩ := summarize_uniform hexists hreads hne huniform
  refine ⟨es, rs, (reads_iff ..).1 hreads, hrs, hp, ?_⟩
  intro order horder
  exact summarize_relist hexists hreads hlists hne huniform hrs horder

/-- two circuits of three qubits and depth two, and two others -/
def deep : Session := stocked "x" ["x_n3_d2.qasm", "x_n10_d2.qasm", "y_n3_d2.qasm", "x_n3_d10.qasm"]

theorem reads_deep : Reads "x" (listedNames deep "x")
    [⟨3, some 2⟩, ⟨10, some 2⟩, ⟨3, some 2⟩, ⟨3, some 10⟩] := by
  have hnames : listedNames deep "x" =
      ["x_n3_d2.qasm", "x_n10_d2.qasm", "y_n3_d2.qasm", "x_n3_d10.qasm"].map String.toList := by
    show (deep.tree.expand ("x" ++ "/*.qasm")).map _ = _
    decide +kernel
  rw [hnames]
  exact .cons rfl (.cons rfl (.cons rfl (.cons rfl .nil)))

theorem uniform_files_are_grouped_by_depth :
    (summarize "x").perform deep = (.ok (), deep.say [.printed ("Application : x\n"
      ++ "qubit : 3 \t  depth : 2 \t  file : 2\n" ++ "qubit : 3 \t  depth : 10 \t  file : 1\n"
      ++ "qubit : 10 \t  depth : 2 \t  file : 1\n")]) := by
  have hreads := reads_deep
  have hof := (exists_reads_iff "x" (listedNames deep "x")).1 ⟨_, hreads⟩
  obtain ⟨_, es, rs, hes, hrs, hprint, _⟩ := uniform_files_are_grouped "x" deep (by decide +kernel)
    (fun paths => .refl paths) (mt hreads.eq_nil_iff.2 (by simp))
    (fun name hname => ((exists_of_iff name).1 (hof name hname)).1)
    (hreads.uniform_iff.1 (.inl (by decide)))
  have hgrouped : Grouped [⟨3, some 2⟩, ⟨10, some 2⟩, ⟨3, some 2⟩, ⟨3, some 10⟩]
      [⟨3, some 2, 2⟩, ⟨3, some 10, 1⟩, ⟨10, some 2, 1⟩] := by
    refine ⟨?_, ?_, by decide, by decide⟩
    · intro e
      simp [Row.key]
      tauto
    · simp [Row.key, Entry.Before]
  obtain rfl := hreads.unique ((reads_iff ..).2 hes)
  have htext : String.join (List.map Row.line [⟨3, some 2, 2⟩, ⟨3, some 10, 1⟩, ⟨10, some 2, 1⟩])
      = "qubit : 3 \t  depth : 2 \t  file : 2\n" ++ "qubit : 3 \t  depth : 10 \t  file : 1\n"
        ++ "qubit : 10 \t  depth : 2 \t  file : 1\n" := by decide +kernel
  rw [hprint, hgrouped.unique hrs (.refl _), report, htext]
  rfl

/-- the directory is there and has a circuit of three qubits; as a pattern its path is that of
another directory -/
theorem bracketed_directory_is_not_grouped :
    (stocked "a[b]" ["x_n3.qasm"]).tree.lookup "a[b]"
        = .ok (.dir [("x_n3.qasm", .file (.text ""))]) ∧
      (⟨3, none⟩ : Entry).Of "x_n3.qasm".toList ∧
      (summarize "a[b]").perform (stocked "a[b]" ["x_n3.qasm"])
        = (.error .noItem, stocked "a[b]" ["x_n3.qasm"]) := by
  have hnames : listedNames (stocked "a[b]" ["x_n3.qasm"]) "a[b]" = [] := by
    show ((stocked "a[b]" ["x_n3.qasm"]).tree.expand ("a[b]" ++ "/*.qasm")).map _ = _
    decide +kernel
  refine ⟨?_, (ofName_iff "a[b]" _ _).1 rfl, ?_⟩
  · rw [Tree.lookup, Tree.locate]
    rfl
  · exact perform_summarize_error (by decide +kernel) (by rw [hnames]; rfl)

/-! ## mixtures -/

/-- what holds of the rows of every summary for `n` names -/
structure Orderly (n : Nat) (rs : List Row) : Prop where
  distinct : (rs.map Row.key).Nodup
  sorted : rs.Pairwise fun a b => a.qubits ≤ b.qubits
  kinds : ∀ r ∈ rs, ∀ r' ∈ rs, r.qubits = r'.qubits → (r.depth = none ↔ r'.depth = none)
  positive : ∀ r ∈ rs, 1 ≤ r.count
  total : (rs.map (·.count)).sum = n

theorem orderly_rows {directory : String} {names : List (List Char)} {es : List Entry}
    (hreads : Reads directory names es) {rs : List Row} (hrs : rows directory names = .ok rs) :
    Orderly es.length rs := by
  obtain ⟨htable, hqubits, _⟩ := tabulates_rows hreads hrs
  refine ⟨htable.keys.nodup, hqubits, ?_, fun r hr => htable.count_pos hr, htable.total⟩
  intro r hr r' hr'
  exact htable.keys.kinds _ (List.mem_map_of_mem hr) _ (List.mem_map_of_mem hr')

/-- **When there is no summary.**  If nothing is listed there is no first row.  Otherwise the
summary is printed exactly if a number of qubits whose first file has no depth has no depth at all,
and if the first file of every number has a depth where the very first one has; if not, a depth is
missed and nothing is printed.  The printed rows are always orderly. -/
theorem summary_fails_iff (directory : String) (σ : Session)
    (hexists : σ.tree.pathExists directory = true)
    (hlists : ∀ paths, (σ.order paths).Perm paths)
    (hnumbers : ∀ name ∈ listedNames σ directory, (∃ q, Numeral QubitMark name q) ∧
      (Unmarked DepthMark name ∨ ∃ d, Numeral DepthMark name d)) :
    (∀ entries, σ.tree.Directory directory entries →
      (listedNames σ directory).Perm (circuitNames entries)) ∧
    ∃ es : List Entry, List.Forall₂ (fun name e => e.Of name) (listedNames σ directory) es ∧
      (es = [] → (summarize directory).perform σ = (.error .noItem, σ)) ∧
      (es ≠ [] → (((summarize directory).perform σ).1 = .ok () ↔ Steady es ∧ Led es)) ∧
      (es ≠ [] → ¬ (Steady es ∧ Led es) →
        (summarize directory).perform σ = (.error (.noField "depth"), σ)) ∧
      (((summarize directory).perform σ).1 = .ok () → ∃ rs,
        (summarize directory).perform σ = (.ok (), σ.say [report directory rs]) ∧
          Orderly es.length rs) := by
  refine ⟨fun entries h => listedNames_perm hlists h, ?_⟩
  obtain ⟨es, hreads⟩ := (exists_reads_iff directory (listedNames σ directory)).2
    fun name hname => (exists_of_iff name).2 (hnumbers name hname)
  refine ⟨es, (reads_iff ..).1 hreads, ?_⟩
  rcases summarize_cases hexists hreads with ⟨hnil, hp⟩ | ⟨hne, hsl, rs, hrs, hp⟩ | ⟨hne, hsl, hp⟩
  · rw [hp]
    exact ⟨fun _ => rfl, fun hne => absurd hnil hne, fun hne => absurd hnil hne, nofun⟩
  · rw [hp]
    exact ⟨fun hnil => absurd hnil hne, fun _ => iff_of_true rfl hsl, fun _ hno => absurd hsl hno,
      fun _ => ⟨rs, rfl, orderly_rows hreads hrs⟩⟩
  · rw [hp]
    exact ⟨fun hnil => absurd hnil hne, fun _ => iff_of_false nofun hsl, fun _ _ => rfl, nofun⟩

/-- a depth is mixed in behind a circuit without one, and with one of its own number -/
def mixture : Session := stocked "x" ["x_n3.qasm", "x_n5_d2.qasm", "x_n5.qasm"]

theorem reads_mixture :
    Reads "x" (listedNames mixture "x") [⟨3, none⟩, ⟨5, some 2⟩, ⟨5, none⟩] := by
  have hnames : listedNames mixture "x" =
      ["x_n3.qasm", "x_n5_d2.qasm", "x_n5.qasm"].map String.toList := by
    show (mixture.tree.expand ("x" ++ "/*.qasm")).map _ = _
    decide +kernel
  rw [hnames]
  exact .cons rfl (.cons rfl (.cons rfl .nil))

theorem summary_of_mixture : ∃ rs, (summarize "x").perform mixture
    = (.ok (), mixture.say [report "x" rs]) ∧ Orderly 3 rs := by
  have hreads := reads_mixture
  have hof := (exists_reads_iff "x" (listedNames mixture "x")).1 ⟨_, hreads⟩
  obtain ⟨_, es, hes, _, hiff, _, hrows⟩ := summary_fails_iff "x" mixture (by decide +kernel)
    (fun paths => .refl paths) (fun name hname => (exists_of_iff name).1 (hof name hname))
  obtain rfl := hreads.unique ((reads_iff ..).2 hes)
  refine hrows ((hiff (by simp)).2 ⟨?_, ?_⟩)
  · intro q f hf hnone e he hq
    subst hq
    have he : e = ⟨3, none⟩ ∨ e = ⟨5, some 2⟩ ∨ e = ⟨5, none⟩ := by simpa using he
    rcases he with rfl | rfl | rfl
    · rfl
    · obtain rfl := Option.some.inj hf
      cases hnone
    · rfl
  · intro e he hdepth
    obtain rfl := Option.some.inj he
    exact absurd rfl hdepth

/-- a directory whose path, as a pattern, is that of a second one too -/
def starred : Session :=
  { Session.initial with
    tree := .dir [("x*", .dir [("a_n3.qasm", .file (.text ""))]),
      ("xy", .dir [("a_n3_d1.qasm", .file (.text ""))])]
    order := id }

/-- the only circuit of the directory has no depth; the depth of the other directory is missed -/
theorem starred_directory_fails :
    starred.tree.lookup "x*" = .ok (.dir [("a_n3.qasm", .file (.text ""))]) ∧
      (⟨3, none⟩ : Entry).Of "a_n3.qasm".toList ∧
      (summarize "x*").perform starred = (.error (.noField "depth"), starred) := by
  have hnames : listedNames starred "x*" =
      ["a_n3.qasm", "a_n3_d1.qasm"].map String.toList := by
    show (starred.tree.expand ("x*" ++ "/*.qasm")).map _ = _
    decide +kernel
  refine ⟨?_, (ofName_iff "x*" _ _).1 rfl, ?_⟩
  · rw [Tree.lookup, Tree.locate]
    rfl
  · exact perform_summarize_error (by decide +kernel) (by rw [hnames]; rfl)

end CircuitBench.Summary
