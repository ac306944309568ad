import CircuitBench.Proofs.Bench.Grouping

/-!
# Summaries and the order of a listing

Nothing says in which order the files of a directory are listed.  If depths are mixed with files
that have none, it matters: the entries can be arranged so that there is a summary (`arranged`), and
so that there is none (`exists_bad_arrangement`).  Every arrangement of the entries is that of some
listing (`exists_listing_order`), so the summary is the same for every order only where depths are
not mixed, or where it fails for another reason (`summaries_alike_iff`).
-/

namespace CircuitBench.Summary

/-! ## arrangements -/

/-- no entry with the number of qubits has a depth -/
def Depthless (es : List Entry) (q : Nat) : Prop := ∀ e ∈ es, e.qubits = q → e.depth = none

instance (es : List Entry) (q : Nat) : Decidable (Depthless es q) :=
  inferInstanceAs (Decidable (∀ e ∈ es, e.qubits = q → e.depth = none))

theorem not_depthless_iff (es : List Entry) (q : Nat) :
    ¬ Depthless es q ↔ ∃ e ∈ es, e.qubits = q ∧ e.depth ≠ none := by
  rw [Depthless]
  push Not
  rfl

theorem exists_leader {es : List Entry} {e : Entry} (he : e ∈ es) :
    ∃ f, leader? es e.qubits = some f := by
  rw [← Option.isSome_iff_exists, leader?, List.find?_isSome]
  exact ⟨e, he, decide_eq_true rfl⟩

section
variable {plain deep rest : List Entry}
  (hplain : ∀ e ∈ plain, Depthless (plain ++ (deep ++ rest)) e.qubits)
  (hdeep : ∀ e ∈ deep, e.depth ≠ none)
  (hrest : ∀ e ∈ rest, ∃ d ∈ deep, d.qubits = e.qubits)
include hplain hdeep hrest

/-- numbers without any depth come first, and then the entries that have one: the others come too
late to be the first of their number -/
theorem depthless_of_leader {q : Nat} {f : Entry}
    (hf : leader? (plain ++ (deep ++ rest)) q = some f) (hnone : f.depth = none) :
    Depthless (plain ++ (deep ++ rest)) q := by
  rw [leader?_append, leader?_append, Option.or_eq_some_iff, Option.or_eq_some_iff] at hf
  rcases hf with hf | ⟨_, hf | ⟨hno, hf⟩⟩
  · rw [← qubits_of_leader? hf]
    exact hplain f (List.mem_of_find?_eq_some hf)
  · exact absurd hnone (hdeep f (List.mem_of_find?_eq_some hf))
  · obtain ⟨d, hd, hqubits⟩ := hrest f (List.mem_of_find?_eq_some hf)
    obtain ⟨g, hg⟩ := exists_leader hd
    rw [hqubits, qubits_of_leader? hf, hno] at hg
    cases hg

theorem steady_arrangement : Steady (plain ++ (deep ++ rest)) := by
  intro q f hf hnone
  exact depthless_of_leader hplain hdeep hrest hf hnone

theorem led_arrangement : Led (plain ++ (deep ++ rest)) := by
  intro e he hdepth q f hf hnone
  have hq := depthless_of_leader hplain hdeep hrest hf hnone
  have hfq := qubits_of_leader? hf
  replace hf := List.mem_of_find?_eq_some hf
  cases plain with
  | cons p plain =>
    -- the very first entry has no depth
    obtain rfl : p = e := Option.some.inj he
    exact hdepth (hplain p List.mem_cons_self p List.mem_cons_self rfl)
  | nil =>
    have hf : f ∈ deep ++ rest := hf
    rcases List.mem_append.1 hf with hf | hf
    · exact hdeep f hf hnone
    · obtain ⟨d, hd, hqubits⟩ := hrest f hf
      exact hdeep d hd (hq d (List.mem_append_left rest hd) (hqubits.trans hfq))

end

/-- the entries whose number has no depth at all, and then the others, those with a depth first -/
def arranged (es : List Entry) : List Entry :=
  let others := es.filter fun e => !decide (Depthless es e.qubits)
  es.filter (fun e => decide (Depthless es e.qubits)) ++
    (others.filter (fun e => decide (e.depth ≠ none)) ++
      others.filter fun e => !decide (e.depth ≠ none))

theorem arranged_perm (es : List Entry) : (arranged es).Perm es :=
  ((List.filter_append_perm _ _).append_left _).trans (List.filter_append_perm _ es)

theorem arranged_steady_led (es : List Entry) : Steady (arranged es) ∧ Led (arranged es) := by
  have hplain : ∀ e ∈ es.filter (fun e => decide (Depthless es e.qubits)),
      Depthless (arranged es) e.qubits := by
    intro e he f hf
    exact of_decide_eq_true (List.mem_filter.1 he).2 f ((arranged_perm es).mem_iff.1 hf)
  have hdeep : ∀ e ∈ (es.filter fun e => !decide (Depthless es e.qubits)).filter
      (fun e => decide (e.depth ≠ none)), e.depth ≠ none := by
    intro e he
    exact of_decide_eq_true (List.mem_filter.1 he).2
  have hrest : ∀ e ∈ (es.filter fun e => !decide (Depthless es e.qubits)).filter
      (fun e => !decide (e.depth ≠ none)),
      ∃ d ∈ (es.filter fun e => !decide (Depthless es e.qubits)).filter
        (fun e => decide (e.depth ≠ none)), d.qubits = e.qubits := by
    intro e he
    have hno : ¬ Depthless es e.qubits := by
      simpa using (List.mem_filter.1 (List.mem_filter.1 he).1).2
    obtain ⟨d, hd, hqubits, hdepth⟩ := (not_depthless_iff es e.qubits).1 hno
    rw [← hqubits] at hno
    refine ⟨d, List.mem_filter.2 ⟨List.mem_filter.2 ⟨hd, ?_⟩, decide_eq_true hdepth⟩, hqubits⟩
    rw [decide_eq_false hno]
    rfl
  exact ⟨steady_arrangement hplain hdeep hrest, led_arrangement hplain hdeep hrest⟩

section
variable {es : List Entry} {e d : Entry} (he : e ∈ es) (hd : d ∈ es) (hnone : e.depth = none)
  (hdepth : d.depth ≠ none)
include he hd hnone hdepth

theorem not_steady_of_first (hqubits : d.qubits = e.qubits) : ¬ Steady (e :: es.erase e) := by
  intro hsteady
  have hleader : leader? (e :: es.erase e) e.qubits = some e :=
    List.find?_cons_of_pos (decide_eq_true rfl)
  exact hdepth (hsteady _ e hleader hnone d ((List.perm_cons_erase he).mem_iff.1 hd) hqubits)

theorem not_led_of_first (hunmixed : Unmixed es) : ¬ Led (d :: es.erase d) := by
  have hperm := List.perm_cons_erase hd
  intro hled
  obtain ⟨f, hf⟩ := exists_leader (hperm.mem_iff.1 he)
  have hmem : f ∈ es := hperm.mem_iff.2 (List.mem_of_find?_eq_some hf)
  have hfnone := (hunmixed f hmem e he (qubits_of_leader? hf)).2 hnone
  exact hled d rfl hdepth _ f hf hfnone

end

/-- where depths are mixed, the wrong entry can come first -/
theorem exists_bad_arrangement {es : List Entry} (h : ¬ Uniform es) :
    ∃ es', es'.Perm es ∧ ¬ (Steady es' ∧ Led es') := by
  have hfirst {e : Entry} (he : e ∈ es) : (e :: es.erase e).Perm es :=
    (List.perm_cons_erase he).symm
  by_cases hunmixed : Unmixed es
  · rw [Uniform] at h
    push Not at h
    obtain ⟨⟨e, he, hnone⟩, d, hd, hdepth⟩ := h
    exact ⟨_, hfirst hd, fun hsl => not_led_of_first he hd hnone hdepth hunmixed hsl.2⟩
  · rw [Unmixed] at hunmixed
    push Not at hunmixed
    obtain ⟨e, he, d, hd, hqubits, hkinds⟩ := hunmixed
    rcases hkinds with ⟨hnone, hdepth⟩ | ⟨hdepth, hnone⟩
    · exact ⟨_, hfirst he, fun hsl => not_steady_of_first he hd hnone hdepth hqubits.symm hsl.1⟩
    · exact ⟨_, hfirst hd, fun hsl => not_steady_of_first hd he hnone hdepth hqubits hsl.1⟩

/-! ## listings -/

theorem exists_listing_order {σ : Session} (hlists : ∀ paths, (σ.order paths).Perm paths)
    {directory : String} {es es' : List Entry}
    (hreads : Reads directory (listedNames σ directory) es) (hperm : es'.Perm es) :
    ∃ order : List String → List String, (∀ paths, (order paths).Perm paths) ∧
      Reads directory (listedNames (σ.relist order) directory) es' := by
  rw [Reads, listedNames, List.forall₂_map_left_iff] at hreads
  obtain ⟨listing, hlisting, hreads'⟩ := List.perm_comp_forall₂ hperm hreads.flip
  obtain ⟨order, horder, heq⟩ := exists_order (hreads'.trans (hlists _))
  refine ⟨order, horder, ?_⟩
  rw [Reads, listedNames, List.forall₂_map_left_iff]
  show List.Forall₂ _ (order (σ.tree.expand (directory ++ "/*.qasm"))) es'
  rw [heq]
  exact hlisting.flip

/-- both print the same, or both fail -/
def Alike (a b : Except Fault Unit × Session) : Prop :=
  (a.1 = .ok () ∧ b.1 = .ok () ∧ a.2.events = b.2.events) ∨
    (∃ fault, a.1 = .error fault) ∧ ∃ fault, b.1 = .error fault

/-- the summary is the same for all orders in which the files can be listed -/
def AlwaysAlike (directory : String) (σ : Session) : Prop :=
  ∀ order order' : List String → List String, (∀ paths, (order paths).Perm paths) →
    (∀ paths, (order' paths).Perm paths) →
    Alike ((summarize directory).perform (σ.relist order))
      ((summarize directory).perform (σ.relist order'))

theorem alwaysAlike_of_error {directory : String} {σ : Session}
    (h : ∀ order : List String → List String, (∀ paths, (order paths).Perm paths) →
      ∃ fault, ((summarize directory).perform (σ.relist order)).1 = .error fault) :
    AlwaysAlike directory σ := by
  intro order order' horder horder'
  exact .inr ⟨h order horder, h order' horder'⟩

theorem perform_summarize_missing {directory : String} {σ : Session}
    (h : σ.tree.pathExists directory = false) :
    (summarize directory).perform σ = (.error (.noDirectory directory), σ) := by
  have hpath : (Job.pathExists directory).perform σ = (.ok false, σ) := by
    rw [Job.perform_pathExists, h]
  rw [summarize, Job.perform_bind_ok hpath]
  rfl

theorem alwaysAlike_of_missing {directory : String} {σ : Session}
    (h : σ.tree.pathExists directory = false) : AlwaysAlike directory σ := by
  apply alwaysAlike_of_error
  intro order _
  exact ⟨_, by rw [perform_summarize_missing (σ := σ.relist order) h]⟩

section
variable {directory : String} {σ : Session} (hexists : σ.tree.pathExists directory = true)
  (hlists : ∀ paths, (σ.order paths).Perm paths)
include hexists hlists

theorem alwaysAlike_of_unread
    (h : ∃ name ∈ listedNames σ directory, ∀ e : Entry, ¬ e.Of name) : AlwaysAlike directory σ := by
  apply alwaysAlike_of_error
  intro order horder
  obtain ⟨name, hname, hno⟩ := h
  have hname' : name ∈ listedNames (σ.relist order) directory :=
    (listedNames_relist_perm hlists horder directory).mem_iff.2 hname
  cases hrs : rows directory (listedNames (σ.relist order) directory) with
  | error fault => exact ⟨fault, by rw [perform_summarize_error (σ := σ.relist order) hexists hrs]⟩
  | ok rs =>
    obtain ⟨e, he⟩ := (exists_reads_iff ..).1 (exists_reads_of_rows hrs) name hname'
    exact absurd he (hno e)

variable {es : List Entry} (hreads : Reads directory (listedNames σ directory) es)
include hreads

theorem alwaysAlike_of_uniform (huniform : Uniform es) : AlwaysAlike directory σ := by
  by_cases hne : es = []
  · apply alwaysAlike_of_error
    intro order horder
    obtain ⟨es', hreads', hperm⟩ :=
      hreads.exists_perm (listedNames_relist_perm hlists horder directory)
    rw [hne] at hperm
    rw [List.perm_nil.1 hperm] at hreads'
    rcases summarize_cases (σ := σ.relist order) hexists hreads' with ⟨_, hp⟩ | ⟨h, _⟩ | ⟨h, _⟩
    · exact ⟨_, by rw [hp]⟩
    · exact absurd rfl h
    · exact absurd rfl h
  · obtain ⟨rs, hrs, _⟩ := summarize_uniform hexists hreads hne huniform
    intro order order' horder horder'
    rw [summarize_relist hexists hreads hlists hne huniform hrs horder,
      summarize_relist hexists hreads hlists hne huniform hrs horder']
    exact .inl ⟨rfl, rfl, by rw [Session.events_say, Session.events_say]; rfl⟩

/-- there is an order with a summary, and one without -/
theorem not_alwaysAlike_of_mixed (hmixed : ¬ Uniform es) : ¬ AlwaysAlike directory σ := by
  have hne : es ≠ [] := by
    rintro rfl
    exact hmixed (.inr nofun)
  have hne' {es' : List Entry} (hperm : es'.Perm es) : es' ≠ [] := by
    rintro rfl
    exact hne (List.nil_perm.1 hperm)
  have hgood := arranged_perm es
  obtain ⟨bad, hbad, hno⟩ := exists_bad_arrangement hmixed
  obtain ⟨order, horder, hreads₁⟩ := exists_listing_order hlists hreads hgood
  obtain ⟨order', horder', hreads₂⟩ := exists_listing_order hlists hreads hbad
  have hok := (summarize_eq_ok_iff (σ := σ.relist order) hexists hreads₁ (hne' hgood)).2
    (arranged_steady_led es)
  have hfail := mt (summarize_eq_ok_iff (σ := σ.relist order') hexists hreads₂ (hne' hbad)).1 hno
  intro halike
  rcases halike order order' horder horder' with ⟨_, hok', _⟩ | ⟨⟨fault, herror⟩, _⟩
  · exact hfail hok'
  · rw [hok] at herror
    cases herror

end

theorem exists_rows_of_ok {directory : String} {σ : Session}
    (hok : ((summarize directory).perform σ).1 = .ok ()) :
    ∃ rs, rows directory (listedNames σ directory) = .ok rs ∧
      (summarize directory).perform σ = (.ok (), σ.say [report directory rs]) := by
  cases hexists : σ.tree.pathExists directory with
  | false =>
    rw [perform_summarize_missing hexists] at hok
    cases hok
  | true =>
    cases hrs : rows directory (listedNames σ directory) with
    | error fault =>
      rw [perform_summarize_error hexists hrs] at hok
      cases hok
    | ok rs => exact ⟨rs, rfl, perform_summarize_ok hexists hrs⟩

/-- why the order of a listing cannot matter: the directory is missing, a name has no numbers, or
depths are not mixed -/
def OrderIrrelevant (directory : String) (σ : Session) : Prop :=
  σ.tree.pathExists directory = false ∨
    (∃ name ∈ listedNames σ directory, ∀ e : Entry, ¬ e.Of name) ∨
    (∀ name ∈ listedNames σ directory, ∃ d, Numeral DepthMark name d) ∨
    ∀ name ∈ listedNames σ directory, Unmarked DepthMark name

theorem alwaysAlike_iff {directory : String} {σ : Session}
    (hlists : ∀ paths, (σ.order paths).Perm paths) :
    AlwaysAlike directory σ ↔ OrderIrrelevant directory σ := by
  rw [OrderIrrelevant]
  cases hexists : σ.tree.pathExists directory with
  | false => exact iff_of_true (alwaysAlike_of_missing hexists) (.inl rfl)
  | true =>
    by_cases hunread : ∃ name ∈ listedNames σ directory, ∀ e : Entry, ¬ e.Of name
    · exact iff_of_true (alwaysAlike_of_unread hexists hlists hunread) (.inr (.inl hunread))
    · have hread := hunread
      push Not at hread
      obtain ⟨es, hreads⟩ := (exists_reads_iff directory (listedNames σ directory)).2 hread
      rw [← hreads.uniform_iff]
      by_cases huniform : Uniform es
      · exact iff_of_true (alwaysAlike_of_uniform hexists hlists hreads huniform)
          (.inr (.inr huniform))
      · refine iff_of_false (not_alwaysAlike_of_mixed hexists hlists hreads huniform) ?_
        rintro (h | h | h)
        · cases h
        · exact hunread h
        · exact huniform h

/-- **When the order of the listing does not matter.**  The summary of a directory is the same for
every order in which its files can be listed, or fails for every order, exactly if the directory is
missing, a name has no numbers, or depths are not mixed.  Without wildcards in the path the files
are those of one directory, and all their orders can occur; with wildcards they are listed directory
by directory, and for the orders that are left the conditions are still enough.  A printed row
counts the files with its numbers, and no others, exactly if no number of qubits has files with a
depth and without. -/
theorem summaries_alike_iff (directory : String) (σ : Session)
    (hlists : ∀ paths, (σ.order paths).Perm paths) :
    (AlwaysAlike directory σ ↔ OrderIrrelevant directory σ) ∧
    (∀ entries, σ.tree.Directory directory entries →
      (listedNames σ directory).Perm (circuitNames entries)) ∧
    (((summarize directory).perform σ).1 = .ok () → ∃ (es : List Entry) (rs : List Row),
      List.Forall₂ (fun name e => e.Of name) (listedNames σ directory) es ∧
      (summarize directory).perform σ = (.ok (), σ.say [report directory rs]) ∧
      ((∀ r ∈ rs, r.count = es.count r.key) ↔ Unmixed es)) := by
  refine ⟨alwaysAlike_iff hlists, fun entries h => listedNames_perm hlists h, ?_⟩
  intro hok
  obtain ⟨rs, hrs, hprint⟩ := exists_rows_of_ok hok
  obtain ⟨es, hreads⟩ := exists_reads_of_rows hrs
  exact ⟨es, rs, (reads_iff ..).1 hreads, hprint, (tabulates_rows hreads hrs).1.exact_iff⟩

/-- two circuits of five qubits, the first one without a depth -/
def fives : Session := stocked "x" ["x_n5.qasm", "x_n5_d3.qasm"]

theorem pathExists_fives : fives.tree.pathExists "x" = true := by decide +kernel

theorem reads_fives : Reads "x" (listedNames fives "x") [⟨5, none⟩, ⟨5, some 3⟩] := by
  have hnames : listedNames fives "x" = ["x_n5.qasm", "x_n5_d3.qasm"].map String.toList := by
    show (fives.tree.expand ("x" ++ "/*.qasm")).map _ = _
    decide +kernel
  rw [hnames]
  exact .cons rfl (.cons rfl .nil)

theorem summaries_of_fives_differ : ¬ AlwaysAlike "x" fives := by
  have hreads := reads_fives
  rw [(summaries_alike_iff "x" fives fun paths => .refl paths).1, OrderIrrelevant,
    ← hreads.uniform_iff]
  rintro (hmissing | ⟨name, hname, hno⟩ | huniform)
  · rw [pathExists_fives] at hmissing
    cases hmissing
  · obtain ⟨e, he⟩ := (exists_reads_iff ..).1 ⟨_, hreads⟩ name hname
    exact hno e he
  · simp [Uniform] at huniform

/-- the circuit without a depth fails the summary if it comes first; if it comes last, it is
counted as one more circuit of depth three -/
theorem five_qubits_counted_twice :
    (⟨5, none⟩ : Entry).Of "x_n5.qasm".toList ∧ (⟨5, some 3⟩ : Entry).Of "x_n5_d3.qasm".toList ∧
      (summarize "x").perform fives = (.error (.noField "depth"), fives) ∧
      (summarize "x").perform (fives.relist List.reverse)
        = (.ok (), (fives.relist List.reverse).say [report "x" [⟨5, some 3, 2⟩]]) := by
  refine ⟨(ofName_iff "x" _ _).1 rfl, (ofName_iff "x" _ _).1 rfl, ?_, ?_⟩
  · rcases summarize_cases pathExists_fives reads_fives with
      ⟨h, _⟩ | ⟨_, ⟨hsteady, _⟩, _⟩ | ⟨_, _, hp⟩
    · cases h
    · have hnone : (some 3 : Option Nat) = none :=
        hsteady 5 ⟨5, none⟩ rfl rfl ⟨5, some 3⟩ (by simp) rfl
      cases hnone
    · exact hp
  · apply perform_summarize_ok (σ := fives.relist List.reverse) pathExists_fives
    have hnames : listedNames (fives.relist List.reverse) "x"
        = ["x_n5_d3.qasm", "x_n5.qasm"].map String.toList := by
      show (fives.tree.expand ("x" ++ "/*.qasm")).reverse.map _ = _
      decide +kernel
    have htally : tally "x" (["x_n5_d3.qasm", "x_n5.qasm"].map String.toList)
        = .ok [⟨5, some 3, 2⟩] := rfl
    rw [rows, hnames, htally]
    exact congrArg Except.ok (List.mergeSort_singleton _)

end CircuitBench.Summary
