import CircuitBench.Bench.Summary
import CircuitBench.Proofs.Session

/-!
# What the rows of a summary count

Entries are counted one after the other.  `Added` has the three things that can happen to an entry:
it opens a row, it joins one, or it is refused because a row of its number of qubits has no depth.

* `Counts`             the rows that stand for a list of entries: every number of qubits has as many
                       files in its rows as it has entries, and its rows have a depth if its first
                       entry has one;
* `Counts.added`       one more entry;
* `tallyFrom_cases`    all of them: they are counted, or some number has a depth after it had none;
* `rows_eq_ok_iff`     when there is a summary at all;
* `summarize_eq`       a summary prints a title and a line for every row of the listed names
                       (`report`), and nothing if they are refused.
-/

namespace CircuitBench.Summary

/-! ## one entry -/

/-- all that counting an entry can come to -/
inductive Added (rows : List Row) (e : Entry) : Except Fault (List Row) → Prop
  /-- no row is for it, so it gets one of its own -/
  | opened (hnew : ∀ r ∈ rows, r.qubits = e.qubits →
      r.depth ≠ none ∧ e.depth ≠ none ∧ r.depth ≠ e.depth) :
      Added rows e (.ok (rows ++ [⟨e.qubits, e.depth, 1⟩]))
  /-- it is counted in a row; without a depth it does not matter which depth that row has -/
  | joined (before : List Row) (r : Row) (after : List Row) (hrows : rows = before ++ r :: after)
      (hqubits : r.qubits = e.qubits) (hdepth : e.depth = none ∨ r.depth = e.depth) :
      Added rows e (.ok (before ++ { r with count := r.count + 1 } :: after))
  /-- it has a depth, and a row of its number has none -/
  | refused (r : Row) (hr : r ∈ rows) (hqubits : r.qubits = e.qubits) (hnone : r.depth = none)
      (hdepth : e.depth ≠ none) : Added rows e (.error (.noField "depth"))

theorem bump_eq (p : Row → Bool) {rows : List Row} (h : ∃ r ∈ rows, p r = true) :
    ∃ before r after, rows = before ++ r :: after ∧ p r = true ∧
      bump p rows = before ++ { r with count := r.count + 1 } :: after := by
  induction rows with
  | nil => simp at h
  | cons r rows ih =>
    by_cases hr : p r = true
    · exact ⟨[], r, rows, rfl, hr, by simp [bump, hr]⟩
    · have h : ∃ r ∈ rows, p r = true := by simpa [hr] using h
      obtain ⟨before, r', after, rfl, hp, hbump⟩ := ih h
      exact ⟨r :: before, r', after, rfl, hp, by simp [bump, hr, hbump]⟩

theorem addEntry_added (rows : List Row) (e : Entry) : Added rows e (addEntry rows e) := by
  obtain ⟨q, depth⟩ := e
  by_cases hsame : ∃ r ∈ rows, r.qubits = q
  · have hfilter : ¬ (rows.filter (·.qubits = q)).isEmpty = true := by
      simpa [List.filter_eq_nil_iff] using hsame
    rw [addEntry]
    dsimp only
    rw [if_neg hfilter]
    cases depth with
    | none =>
      obtain ⟨before, r, after, hrows, hr, hbump⟩ :=
        bump_eq (fun r => decide (r.qubits = q)) (by simpa using hsame)
      dsimp only
      rw [hbump]
      exact .joined before r after hrows (of_decide_eq_true hr) (.inl rfl)
    | some d =>
      dsimp only
      split_ifs with hnone hdepth
      · obtain ⟨r, hr, hdepth⟩ := List.any_eq_true.1 hnone
        obtain ⟨hr, hq⟩ := List.mem_filter.1 hr
        exact .refused r hr (of_decide_eq_true hq) (Option.isNone_iff_eq_none.1 hdepth) (by simp)
      · obtain ⟨r, hr, hd⟩ := List.any_eq_true.1 hdepth
        obtain ⟨hr, hq⟩ := List.mem_filter.1 hr
        obtain ⟨before, r, after, hrows, hr, hbump⟩ :=
          bump_eq (fun r => decide (r.qubits = q ∧ r.depth = some d))
            ⟨r, hr, decide_eq_true ⟨of_decide_eq_true hq, of_decide_eq_true hd⟩⟩
        obtain ⟨hq, hd⟩ := of_decide_eq_true hr
        rw [hbump]
        exact .joined before r after hrows hq (.inr hd)
      · refine .opened ?_
        intro r hr hq
        have hr : r ∈ rows.filter (·.qubits = q) := List.mem_filter.2 ⟨hr, decide_eq_true hq⟩
        refine ⟨?_, by simp, ?_⟩
        · intro h
          exact hnone (List.any_eq_true.2 ⟨r, hr, Option.isNone_iff_eq_none.2 h⟩)
        · intro h
          exact hdepth (List.any_eq_true.2 ⟨r, hr, decide_eq_true h⟩)
  · have hfilter : (rows.filter (·.qubits = q)).isEmpty = true := by
      simpa [List.filter_eq_nil_iff] using hsame
    rw [addEntry]
    dsimp only
    rw [if_pos hfilter]
    refine .opened ?_
    intro r hr hq
    exact absurd ⟨r, hr, hq⟩ hsame

/-! ## rows that stand for entries -/

/-- the first entry with a number of qubits -/
def leader? (es : List Entry) (q : Nat) : Option Entry := es.find? (·.qubits = q)

/-- a number of qubits whose first entry has no depth has no depth at all -/
def Steady (es : List Entry) : Prop :=
  ∀ q, ∀ f ∈ leader? es q, f.depth = none → ∀ e ∈ es, e.qubits = q → e.depth = none

/-- if the very first entry has a depth, the first entry of every number of qubits has one -/
def Led (es : List Entry) : Prop :=
  ∀ e ∈ es.head?, e.depth ≠ none → ∀ q, ∀ f ∈ leader? es q, f.depth ≠ none

/-- the number of files in the rows of a number of qubits -/
def filesIn (rows : List Row) (q : Nat) : Nat :=
  ((rows.filter (·.qubits = q)).map (·.count)).sum

structure Counts (es : List Entry) (rows : List Row) : Prop where
  total : ∀ q, filesIn rows q = es.countP (·.qubits = q)
  kind : ∀ r ∈ rows, ∃ f ∈ leader? es r.qubits, r.depth.isSome = f.depth.isSome
  first : rows.head?.map (·.depth) = es.head?.map (·.depth)
  steady : Steady es

theorem leader?_append (es fs : List Entry) (q : Nat) :
    leader? (es ++ fs) q = (leader? es q).or (leader? fs q) := List.find?_append

theorem leader?_singleton (e : Entry) (q : Nat) :
    leader? [e] q = if e.qubits = q then some e else none := by
  by_cases h : e.qubits = q
  · simp [leader?, h]
  · simp [leader?, h]

theorem qubits_of_leader? {es : List Entry} {f : Entry} {q : Nat} (h : leader? es q = some f) :
    f.qubits = q := by
  have hq := List.find?_some (p := fun e : Entry => decide (e.qubits = q)) h
  exact of_decide_eq_true hq

theorem leader?_append_of_some {es : List Entry} {f : Entry} {q : Nat} (h : leader? es q = some f)
    (fs : List Entry) : leader? (es ++ fs) q = some f := by
  rw [leader?_append, h, Option.some_or]

theorem Steady.of_append {es fs : List Entry} (h : Steady (es ++ fs)) : Steady es := by
  intro q f hf hnone e he hq
  exact h q f (leader?_append_of_some hf fs) hnone e (List.mem_append_left fs he) hq

/-- one more entry keeps the entries steady if it goes along with the first of its number -/
theorem steady_append_singleton {es : List Entry} (h : Steady es) (e : Entry) :
    Steady (es ++ [e]) ↔ ∀ f ∈ leader? es e.qubits, f.depth = none → e.depth = none := by
  constructor
  · intro hs f hf hnone
    have hf' := leader?_append_of_some hf [e]
    exact hs e.qubits f hf' hnone e (List.mem_append_right es List.mem_cons_self) rfl
  · intro he q f hf hnone e' he' hq
    rw [leader?_append, leader?_singleton] at hf
    cases hl : leader? es q with
    | some f' =>
      rw [hl, Option.some_or] at hf
      obtain rfl := Option.some.inj hf
      rcases List.mem_append.1 he' with he' | he'
      · exact h q f' hl hnone e' he' hq
      · obtain rfl := List.mem_singleton.1 he'
        subst hq
        exact he f' hl hnone
    | none =>
      rw [hl, Option.none_or] at hf
      split_ifs at hf with heq
      · obtain rfl := Option.some.inj hf
        rcases List.mem_append.1 he' with he' | he'
        · have hno := List.find?_eq_none.1 hl e' he'
          exact absurd (decide_eq_true hq) hno
        · rwa [List.mem_singleton.1 he']
      · cases hf

/-- depths are not mixed: all entries have one, or none has -/
def Uniform (es : List Entry) : Prop :=
  (∀ e ∈ es, e.depth ≠ none) ∨ ∀ e ∈ es, e.depth = none

theorem Uniform.steady {es : List Entry} (h : Uniform es) : Steady es := by
  intro q f hf hnone e he _
  rcases h with h | h
  · exact absurd hnone (h f (List.mem_of_find?_eq_some hf))
  · exact h e he

theorem Uniform.led {es : List Entry} (h : Uniform es) : Led es := by
  intro e he hdepth q f hf
  rcases h with h | h
  · exact h f (List.mem_of_find?_eq_some hf)
  · exact absurd (h e (List.mem_of_head? he)) hdepth

theorem filesIn_append (rows rows' : List Row) (q : Nat) :
    filesIn (rows ++ rows') q = filesIn rows q + filesIn rows' q := by
  simp [filesIn]

theorem filesIn_cons (r : Row) (rows : List Row) (q : Nat) :
    filesIn (r :: rows) q = (if r.qubits = q then r.count else 0) + filesIn rows q := by
  by_cases h : r.qubits = q
  · simp [filesIn, h]
  · simp [filesIn, h]

theorem countP_append_singleton (es : List Entry) (e : Entry) (q : Nat) :
    (es ++ [e]).countP (·.qubits = q) =
      es.countP (·.qubits = q) + if e.qubits = q then 1 else 0 := by
  simp [List.countP_append, List.countP_singleton]

namespace Counts

variable {es : List Entry} {rows : List Row}

theorem nil : Counts [] [] where
  total := fun q => rfl
  kind := by simp
  first := rfl
  steady := by simp [Steady, leader?]

/-- a number that has an entry has a row -/
theorem exists_row (h : Counts es rows) {q : Nat} {f : Entry} (hf : leader? es q = some f) :
    ∃ r ∈ rows, r.qubits = q := by
  have hmem : f ∈ es := List.mem_of_find?_eq_some hf
  have hpos : 0 < filesIn rows q := by
    rw [h.total]
    exact List.countP_pos_iff.2 ⟨f, hmem, decide_eq_true (qubits_of_leader? hf)⟩
  by_contra hno
  push Not at hno
  have hnil : rows.filter (·.qubits = q) = [] := by
    simpa [List.filter_eq_nil_iff] using hno
  rw [filesIn, hnil] at hpos
  exact absurd hpos (by simp)

/-- the rows of a number go along with its first entry -/
theorem depth_eq_none_iff (h : Counts es rows) {r : Row} (hr : r ∈ rows) {f : Entry}
    (hf : leader? es r.qubits = some f) : r.depth = none ↔ f.depth = none := by
  obtain ⟨f', hf', hkind⟩ := h.kind r hr
  rw [Option.mem_def, hf] at hf'
  obtain rfl := Option.some.inj hf'
  rw [← Option.not_isSome_iff_eq_none, ← Option.not_isSome_iff_eq_none, hkind]

theorem kind_append (h : Counts es rows) (e : Entry) (r : Row) (hr : r ∈ rows) :
    ∃ f ∈ leader? (es ++ [e]) r.qubits, r.depth.isSome = f.depth.isSome := by
  obtain ⟨f, hf, hkind⟩ := h.kind r hr
  exact ⟨f, leader?_append_of_some hf [e], hkind⟩

/-- the entry gets a row of its own -/
theorem opened (h : Counts es rows) {e : Entry} (hnew : ∀ r ∈ rows, r.qubits = e.qubits →
    r.depth ≠ none ∧ e.depth ≠ none ∧ r.depth ≠ e.depth) :
    Counts (es ++ [e]) (rows ++ [⟨e.qubits, e.depth, 1⟩]) := by
  have hleader (f : Entry) (hf : leader? es e.qubits = some f) :
      f.depth ≠ none ∧ e.depth ≠ none := by
    obtain ⟨r, hr, hq⟩ := h.exists_row hf
    obtain ⟨hrdepth, hedepth, _⟩ := hnew r hr hq
    rw [← hq] at hf
    exact ⟨mt (h.depth_eq_none_iff hr hf).2 hrdepth, hedepth⟩
  refine ⟨?_, ?_, ?_, ?_⟩
  · intro q
    rw [filesIn_append, filesIn_cons, countP_append_singleton, h.total]
    rfl
  · intro r hr
    rcases List.mem_append.1 hr with hr | hr
    · exact h.kind_append e r hr
    · obtain rfl := List.mem_singleton.1 hr
      cases hl : leader? es e.qubits with
      | none => exact ⟨e, by simp [leader?_append, leader?_singleton, hl], rfl⟩
      | some f =>
        obtain ⟨hf, he⟩ := hleader f hl
        refine ⟨f, leader?_append_of_some hl [e], ?_⟩
        rw [Option.isSome_iff_ne_none.2 he, Option.isSome_iff_ne_none.2 hf]
  · rw [List.head?_append, List.head?_append, Option.map_or, Option.map_or, h.first]
    rfl
  · rw [steady_append_singleton h.steady]
    intro f hf hnone
    exact absurd hnone (hleader f hf).1

/-- the entry is counted in a row that is there -/
theorem joined {before after : List Row} {r : Row} (h : Counts es (before ++ r :: after))
    {e : Entry} (hqubits : r.qubits = e.qubits) (hdepth : e.depth = none ∨ r.depth = e.depth) :
    Counts (es ++ [e]) (before ++ { r with count := r.count + 1 } :: after) := by
  have hr : r ∈ before ++ r :: after := List.mem_append_right _ List.mem_cons_self
  refine ⟨?_, ?_, ?_, ?_⟩
  · intro q
    have htotal := h.total q
    rw [filesIn_append, filesIn_cons] at htotal
    rw [filesIn_append, filesIn_cons, countP_append_singleton, ← htotal, ← hqubits]
    dsimp only
    split_ifs
    · omega
    · omega
  · intro r' hr'
    rcases List.mem_append.1 hr' with hr' | hr'
    · exact h.kind_append e r' (List.mem_append_left _ hr')
    · rcases List.mem_cons.1 hr' with rfl | hr'
      · exact h.kind_append e r hr
      · exact h.kind_append e r' (List.mem_append_right _ (List.mem_cons_of_mem r hr'))
  · have hfirst := h.first
    cases es with
    | nil => cases before <;> simp at hfirst
    | cons f es => cases before <;> exact hfirst
  · rw [steady_append_singleton h.steady]
    intro f hf hnone
    rcases hdepth with hdepth | hdepth
    · exact hdepth
    · rw [← hqubits] at hf
      rw [← hdepth]
      exact (h.depth_eq_none_iff hr hf).2 hnone

/-- the entry has a depth, and the first one of its number has none -/
theorem refused (h : Counts es rows) {e : Entry} {r : Row} (hr : r ∈ rows)
    (hqubits : r.qubits = e.qubits) (hnone : r.depth = none) (hdepth : e.depth ≠ none) :
    ¬ Steady (es ++ [e]) := by
  rw [steady_append_singleton h.steady]
  intro hs
  obtain ⟨f, hf, _⟩ := h.kind r hr
  have hfnone : f.depth = none := (h.depth_eq_none_iff hr hf).1 hnone
  rw [hqubits] at hf
  exact hdepth (hs f hf hfnone)

/-- an entry is counted, or it comes with a depth to a number that had none -/
theorem added (h : Counts es rows) (e : Entry) :
    (∃ rows', addEntry rows e = .ok rows' ∧ Counts (es ++ [e]) rows') ∨
      addEntry rows e = .error (.noField "depth") ∧ ¬ Steady (es ++ [e]) := by
  generalize hres : addEntry rows e = res
  have hadded := addEntry_added rows e
  rw [hres] at hadded
  cases hadded with
  | opened hnew => exact .inl ⟨_, rfl, h.opened hnew⟩
  | joined before r after hrows hqubits hdepth =>
    subst hrows
    exact .inl ⟨_, rfl, h.joined hqubits hdepth⟩
  | refused r hr hqubits hnone hdepth => exact .inr ⟨rfl, h.refused hr hqubits hnone hdepth⟩

end Counts

/-! ## all entries -/

/-- the names have the numbers of the entries -/
def Reads (directory : String) (names : List (List Char)) (es : List Entry) : Prop :=
  List.Forall₂ (fun name e => Entry.ofName directory name = .ok e) names es

theorem tallyFrom_cons {directory : String} {name : List Char} {e : Entry}
    (h : Entry.ofName directory name = .ok e) (rows : List Row) (names : List (List Char)) :
    tallyFrom directory rows (name :: names)
      = addEntry rows e >>= fun rows => tallyFrom directory rows names := by
  rw [tallyFrom, h]
  rfl

theorem tallyFrom_cases {directory : String} {names : List (List Char)} {es : List Entry}
    (hreads : Reads directory names es) {before : List Entry} {rows : List Row}
    (hrows : Counts before rows) :
    (∃ rows', tallyFrom directory rows names = .ok rows' ∧ Counts (before ++ es) rows') ∨
      tallyFrom directory rows names = .error (.noField "depth") ∧ ¬ Steady (before ++ es) := by
  induction hreads generalizing before rows with
  | nil =>
    left
    exact ⟨rows, tallyFrom_nil directory rows, by rwa [List.append_nil]⟩
  | @cons name e names es hname _ ih =>
    rw [tallyFrom_cons hname, List.append_cons]
    rcases hrows.added e with ⟨rows', hadd, hrows'⟩ | ⟨hadd, hsteady⟩
    · rw [hadd]
      exact ih hrows'
    · right
      rw [hadd]
      exact ⟨rfl, mt Steady.of_append hsteady⟩

theorem exists_reads_of_tallyFrom {directory : String} {names : List (List Char)}
    {rows rows' : List Row} (h : tallyFrom directory rows names = .ok rows') :
    ∃ es, Reads directory names es := by
  induction names generalizing rows with
  | nil => exact ⟨[], .nil⟩
  | cons name names ih =>
    cases hname : Entry.ofName directory name with
    | error fault =>
      rw [tallyFrom, hname] at h
      cases h
    | ok e =>
      rw [tallyFrom_cons hname] at h
      cases hadd : addEntry rows e with
      | error fault =>
        rw [hadd] at h
        cases h
      | ok rows'' =>
        rw [hadd] at h
        obtain ⟨es, hes⟩ := ih h
        exact ⟨e :: es, .cons hname hes⟩

/-! ## sorting -/

theorem filesIn_perm {rows rows' : List Row} (h : rows.Perm rows') (q : Nat) :
    filesIn rows q = filesIn rows' q :=
  ((h.filter _).map _).sum_eq

/-- rows are sorted if there are any and, where the first has a depth, all have one -/
theorem sortRows_cases (rows : List Row) :
    (∃ sorted, sortRows rows = .ok sorted ∧ sorted.Perm rows ∧ rows ≠ [] ∧
      ∀ r ∈ rows.head?, r.depth ≠ none → ∀ r ∈ rows, r.depth ≠ none) ∨
    ∃ fault, sortRows rows = .error fault ∧
      (rows = [] ∨ ∃ r ∈ rows.head?, r.depth ≠ none ∧ ∃ r ∈ rows, r.depth = none) := by
  cases rows with
  | nil => exact .inr ⟨_, rfl, .inl rfl⟩
  | cons r rows =>
    rw [sortRows]
    split_ifs with hsome hnone
    · right
      obtain ⟨r', hr', hdepth⟩ := List.any_eq_true.1 hnone
      exact ⟨_, rfl, .inr ⟨r, rfl, Option.isSome_iff_ne_none.1 hsome, r',
        List.mem_cons_of_mem r hr', Option.isNone_iff_eq_none.1 hdepth⟩⟩
    · left
      refine ⟨_, rfl, List.mergeSort_perm _ _, List.cons_ne_nil _ _, ?_⟩
      intro _ _ _ r' hr' hdepth
      rcases List.mem_cons.1 hr' with rfl | hr'
      · exact Option.isSome_iff_ne_none.1 hsome hdepth
      · exact hnone (List.any_eq_true.2 ⟨r', hr', Option.isNone_iff_eq_none.2 hdepth⟩)
    · left
      refine ⟨_, rfl, List.mergeSort_perm _ _, List.cons_ne_nil _ _, ?_⟩
      intro r' hr' hdepth
      obtain rfl := Option.some.inj hr'
      exact absurd (Option.isSome_iff_ne_none.2 hdepth) hsome

section
variable {es : List Entry} {rows : List Row} (h : Counts es rows)
include h

theorem Counts.ne_nil_iff : rows ≠ [] ↔ es ≠ [] := by
  have hfirst := h.first
  cases rows with
  | nil =>
    cases es with
    | nil => simp
    | cons e es => simp at hfirst
  | cons r rows =>
    cases es with
    | nil => simp at hfirst
    | cons e es => simp

theorem Counts.led_iff :
    Led es ↔ ∀ r ∈ rows.head?, r.depth ≠ none → ∀ r ∈ rows, r.depth ≠ none := by
  have hhead : (∃ e ∈ es.head?, e.depth ≠ none) ↔ ∃ r ∈ rows.head?, r.depth ≠ none := by
    have hfirst := h.first
    cases es with
    | nil =>
      cases rows with
      | nil => simp
      | cons r rows => simp at hfirst
    | cons e es =>
      cases rows with
      | nil => simp at hfirst
      | cons r rows =>
        have hdepth : r.depth = e.depth := by simpa using hfirst
        simp [hdepth]
  have hall : (∀ q, ∀ f ∈ leader? es q, f.depth ≠ none) ↔ ∀ r ∈ rows, r.depth ≠ none := by
    constructor
    · intro hf r hr
      obtain ⟨f, hl, _⟩ := h.kind r hr
      exact mt (h.depth_eq_none_iff hr hl).1 (hf r.qubits f hl)
    · intro hr q f hl
      obtain ⟨r, hmem, rfl⟩ := h.exists_row hl
      exact mt (h.depth_eq_none_iff hmem hl).2 (hr r hmem)
  constructor
  · intro hled r hr hdepth
    obtain ⟨e, he, hedepth⟩ := hhead.2 ⟨r, hr, hdepth⟩
    exact hall.1 (hled e he hedepth)
  · intro hrows e he hdepth
    obtain ⟨r, hr, hrdepth⟩ := hhead.1 ⟨e, he, hdepth⟩
    exact hall.2 (hrows r hr hrdepth)

end

/-! ## the summary -/

section
variable {directory : String} {names : List (List Char)} {es : List Entry}
  (hreads : Reads directory names es)
include hreads

/-- there is a summary if there are entries, and depths do not mix with entries that have none -/
theorem rows_eq_ok_iff :
    (∃ rs, rows directory names = .ok rs) ↔ es ≠ [] ∧ Steady es ∧ Led es := by
  rw [rows, tally]
  rcases tallyFrom_cases hreads Counts.nil with ⟨rows', htally, hrows⟩ | ⟨htally, hsteady⟩
  · rw [List.nil_append] at hrows
    rw [htally, ← hrows.ne_nil_iff, hrows.led_iff]
    show (∃ rs, sortRows rows' = .ok rs) ↔ _
    rcases sortRows_cases rows' with ⟨sorted, hsort, _, hne, hall⟩ | ⟨fault, hsort, hbad⟩
    · exact iff_of_true ⟨sorted, hsort⟩ ⟨hne, hrows.steady, hall⟩
    · refine iff_of_false ?_ ?_
      · rintro ⟨rs, hrs⟩
        rw [hsort] at hrs
        cases hrs
      · rintro ⟨hne, _, hall⟩
        rcases hbad with hnil | ⟨r, hr, hdepth, r', hr', hnone⟩
        · exact hne hnil
        · exact hall r hr hdepth r' hr' hnone
  · rw [htally]
    refine iff_of_false ?_ ?_
    · rintro ⟨rs, hrs⟩
      cases hrs
    · rintro ⟨_, hs, _⟩
      exact hsteady hs

/-- the rows of a number of qubits count its entries -/
theorem filesIn_rows {rs : List Row} (hrs : rows directory names = .ok rs) (q : Nat) :
    filesIn rs q = es.countP (·.qubits = q) := by
  rw [rows, tally] at hrs
  rcases tallyFrom_cases hreads Counts.nil with ⟨rows', htally, hrows⟩ | ⟨htally, _⟩
  · rw [htally] at hrs
    have hrs : sortRows rows' = .ok rs := hrs
    rcases sortRows_cases rows' with ⟨sorted, hsort, hperm, _⟩ | ⟨fault, hsort, _⟩
    · rw [hsort] at hrs
      obtain rfl := Except.ok.inj hrs
      rw [filesIn_perm hperm]
      exact hrows.total q
    · rw [hsort] at hrs
      cases hrs
  · rw [htally] at hrs
    cases hrs

end

theorem exists_reads_of_rows {directory : String} {names : List (List Char)} {rs : List Row}
    (hrs : rows directory names = .ok rs) : ∃ es, Reads directory names es := by
  rw [rows, tally] at hrs
  cases htally : tallyFrom directory [] names with
  | error fault =>
    rw [htally] at hrs
    cases hrs
  | ok rows' => exact exists_reads_of_tallyFrom htally

/-- the names of the circuit files of a directory, as the session lists them -/
def listedNames (σ : Session) (directory : String) : List (List Char) :=
  (σ.order (σ.tree.expand (directory ++ "/*.qasm"))).map fun f => Path.baseNameChars f.toList

/-- the line of a row: its number of qubits, its depth if it has one, and its number of files -/
def Row.line (r : Row) : String :=
  "qubit : " ++ toString r.qubits ++ (r.depth.elim "" fun d => " \t  depth : " ++ toString d) ++
    " \t  file : " ++ toString r.count ++ "\n"

def report (directory : String) (rs : List Row) : Event :=
  .printed ("Application : " ++ directory ++ "\n" ++ String.join (rs.map Row.line))

theorem Row.text_newline (r : Row) : r.text ++ "\n" = r.line := by
  obtain ⟨q, depth, count⟩ := r
  cases depth with
  | none => rfl
  | some d => rfl

theorem join_lines (directory : String) (rs : List Row) :
    String.join ((lines directory rs).map (· ++ "\n")) =
      "Application : " ++ directory ++ "\n" ++ String.join (rs.map Row.line) := by
  rw [lines, List.map_cons, List.map_map, String.join_cons]
  simp only [Function.comp_def, Row.text_newline]

section
variable {directory : String} {σ : Session} (hexists : σ.tree.pathExists directory = true)
include hexists

theorem summarize_eq :
    (summarize directory).perform σ = (do
      let rs ← Job.lift id (rows directory (listedNames σ directory))
      Job.printText ("Application : " ++ directory ++ "\n" ++ String.join (rs.map Row.line)) :
        Job Unit).perform σ := by
  have hpath : (Job.pathExists directory).perform σ = (.ok true, σ) := by
    rw [Job.perform_pathExists, hexists]
  rw [summarize, Job.perform_bind_ok hpath]
  simp only [Bool.not_true, Bool.false_eq_true, if_false]
  rw [Job.perform_bind_ok (Job.perform_get σ)]
  simp only [← join_lines]
  rfl

theorem perform_summarize_ok {rs : List Row}
    (hrs : rows directory (listedNames σ directory) = .ok rs) :
    (summarize directory).perform σ = (.ok (), σ.say [report directory rs]) := by
  rw [summarize_eq hexists, hrs, Job.perform_bind_ok (Job.perform_lift _ _ _)]
  rfl

theorem perform_summarize_error {fault : Fault}
    (hrs : rows directory (listedNames σ directory) = .error fault) :
    (summarize directory).perform σ = (.error fault, σ) := by
  rw [summarize_eq hexists, hrs]
  exact Job.perform_bind_error rfl

end

end CircuitBench.Summary
