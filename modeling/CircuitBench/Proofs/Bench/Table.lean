import CircuitBench.Proofs.Bench.Tally
import Mathlib

/-!
# The table of a summary

A row has the numbers of some entry for its key.  Whatever the entries are, the rows that are
counted from them have different keys, the rows of one number of qubits have all a depth or none,
and no row counts less than the entries of its key (`Tabulates`, `tabulates_tallyFrom`).  What a row
counts beyond that are entries without a depth; so the counts are exact if and only if depths are
not mixed within a number of qubits (`Tabulates.exact_iff`).

Sorting keeps all this.  If all entries have a depth, or none has, the sorted rows stand in the
strict order of their keys (`grouped_rows`), and there is only one such table (`Grouped.unique`).
-/

namespace CircuitBench.Summary

/-! ## keys -/

def Row.key (r : Row) : Entry := ⟨r.qubits, r.depth⟩

/-- the keys of the rows for a list of entries -/
structure Keys (es ks : List Entry) : Prop where
  nodup : ks.Nodup
  mem : ∀ k ∈ ks, k ∈ es
  covers : ∀ e ∈ es, ∃ k ∈ ks, k.qubits = e.qubits ∧ (e.depth = none ∨ k.depth = e.depth)
  kinds : ∀ k ∈ ks, ∀ k' ∈ ks, k.qubits = k'.qubits → (k.depth = none ↔ k'.depth = none)

/-- a key that covers an entry of its kind is the entry's own -/
theorem eq_of_covers {e k : Entry} (hqubits : k.qubits = e.qubits)
    (hdepth : e.depth = none ∨ k.depth = e.depth) (hkind : k.depth = none ↔ e.depth = none) :
    k = e := by
  have hsame : k.depth = e.depth := by
    rcases hdepth with hnone | hsame
    · rw [hnone, hkind, hnone]
    · exact hsame
  obtain ⟨q, d⟩ := k
  obtain ⟨q', d'⟩ := e
  rw [Entry.mk.injEq]
  exact ⟨hqubits, hsame⟩

namespace Keys

variable {es ks : List Entry}

theorem nil : Keys [] [] where
  nodup := List.nodup_nil
  mem := by simp
  covers := by simp
  kinds := by simp

section
variable {e : Entry} (hnew : ∀ k ∈ ks, k.qubits = e.qubits →
  k.depth ≠ none ∧ e.depth ≠ none ∧ k.depth ≠ e.depth)
include hnew

theorem notMem_of_new : e ∉ ks := by
  intro he
  exact (hnew e he rfl).2.2 rfl

theorem notMem_entries (h : Keys es ks) : e ∉ es := by
  intro he
  obtain ⟨k, hk, hqubits, hdepth⟩ := h.covers e he
  obtain ⟨_, hsome, hne⟩ := hnew k hk hqubits
  exact hdepth.elim hsome hne

theorem opened (h : Keys es ks) : Keys (es ++ [e]) (ks ++ [e]) where
  nodup := by
    rw [List.nodup_append]
    refine ⟨h.nodup, List.nodup_singleton e, ?_⟩
    intro k hk k' hk' hkk'
    rw [hkk', List.mem_singleton.1 hk'] at hk
    exact notMem_of_new hnew hk
  mem := by
    intro k hk
    rcases List.mem_append.1 hk with hk | hk
    · exact List.mem_append_left _ (h.mem k hk)
    · exact List.mem_append_right _ hk
  covers := by
    intro f hf
    rcases List.mem_append.1 hf with hf | hf
    · obtain ⟨k, hk, hf⟩ := h.covers f hf
      exact ⟨k, List.mem_append_left _ hk, hf⟩
    · exact ⟨f, List.mem_append_right _ hf, rfl, .inr rfl⟩
  kinds := by
    have hkind (k : Entry) (hk : k ∈ ks) (hq : k.qubits = e.qubits) :
        k.depth = none ↔ e.depth = none :=
      iff_of_false (hnew k hk hq).1 (hnew k hk hq).2.1
    intro k hk k' hk' hq
    rcases List.mem_append.1 hk with hk | hk
    · rcases List.mem_append.1 hk' with hk' | hk'
      · exact h.kinds k hk k' hk' hq
      · rw [List.mem_singleton.1 hk'] at hq ⊢
        exact hkind k hk hq
    · rcases List.mem_append.1 hk' with hk' | hk'
      · rw [List.mem_singleton.1 hk] at hq ⊢
        exact (hkind k' hk' hq.symm).symm
      · rw [List.mem_singleton.1 hk, List.mem_singleton.1 hk']

end

section
variable {e k : Entry} (hk : k ∈ ks) (hqubits : k.qubits = e.qubits)
  (hdepth : e.depth = none ∨ k.depth = e.depth)
include hk hqubits hdepth

theorem joined (h : Keys es ks) : Keys (es ++ [e]) ks where
  nodup := h.nodup
  mem := fun k hk => List.mem_append_left _ (h.mem k hk)
  covers := by
    intro f hf
    rcases List.mem_append.1 hf with hf | hf
    · exact h.covers f hf
    · rw [List.mem_singleton.1 hf]
      exact ⟨k, hk, hqubits, hdepth⟩
  kinds := h.kinds

/-- an entry that has a row of its own is counted there -/
theorem eq_of_joined (h : Keys es ks) (he : e ∈ ks) : k = e :=
  eq_of_covers hqubits hdepth (h.kinds k hk e he hqubits)

end

end Keys

/-! ## counts -/

/-- the rows count the entries, each entry once, and those of a key in its row -/
structure Tabulates (es : List Entry) (rows : List Row) : Prop where
  keys : Keys es (rows.map Row.key)
  least : ∀ r ∈ rows, es.count r.key ≤ r.count
  total : (rows.map (·.count)).sum = es.length

namespace Tabulates

variable {es : List Entry} {rows : List Row} {e : Entry}

theorem nil : Tabulates [] [] where
  keys := .nil
  least := by simp
  total := rfl

theorem opened (h : Tabulates es rows) (hnew : ∀ r ∈ rows, r.qubits = e.qubits →
    r.depth ≠ none ∧ e.depth ≠ none ∧ r.depth ≠ e.depth) :
    Tabulates (es ++ [e]) (rows ++ [⟨e.qubits, e.depth, 1⟩]) := by
  have hnewKeys : ∀ k ∈ rows.map Row.key, k.qubits = e.qubits →
      k.depth ≠ none ∧ e.depth ≠ none ∧ k.depth ≠ e.depth := by
    rintro _ hk
    obtain ⟨r, hr, rfl⟩ := List.mem_map.1 hk
    exact hnew r hr
  refine ⟨?_, ?_, ?_⟩
  · rw [List.map_append]
    exact Keys.opened hnewKeys h.keys
  · intro r hr
    rw [List.count_append]
    rcases List.mem_append.1 hr with hold | hopened
    · have hne : e ≠ r.key := by
        rintro rfl
        exact Keys.notMem_of_new hnewKeys (List.mem_map_of_mem hold)
      rw [List.count_singleton, if_neg (by simpa using hne), Nat.add_zero]
      exact h.least r hold
    · obtain rfl := List.mem_singleton.1 hopened
      show es.count e + [e].count e ≤ 1
      rw [List.count_eq_zero.2 (Keys.notMem_entries hnewKeys h.keys), List.count_singleton_self]
  · rw [List.map_append, List.sum_append, List.length_append, h.total]
    rfl

theorem joined {before after : List Row} {r : Row} (h : Tabulates es (before ++ r :: after))
    (hqubits : r.qubits = e.qubits) (hdepth : e.depth = none ∨ r.depth = e.depth) :
    Tabulates (es ++ [e]) (before ++ { r with count := r.count + 1 } :: after) := by
  have hkeys : (before ++ { r with count := r.count + 1 } :: after).map Row.key
      = (before ++ r :: after).map Row.key := by
    rw [List.map_append, List.map_append]
    rfl
  have hr : r.key ∈ (before ++ r :: after).map Row.key := List.mem_map_of_mem (by simp)
  have hmem (r' : Row) (hr' : r' ∈ before ++ after) : r' ∈ before ++ r :: after := by
    rw [List.mem_append] at hr' ⊢
    exact hr'.imp_right (List.mem_cons_of_mem r)
  -- a row at another place has another key, so the entry does not belong to it
  have hother (r' : Row) (hr' : r' ∈ before ++ after) : e ≠ r'.key := by
    rintro rfl
    have hsame := Keys.eq_of_joined hr hqubits hdepth h.keys (List.mem_map_of_mem (hmem r' hr'))
    have hnodup := h.keys.nodup
    rw [List.map_append, List.map_cons, List.nodup_middle, List.nodup_cons, ← List.map_append,
      hsame] at hnodup
    exact hnodup.1 (List.mem_map_of_mem hr')
  have hleast (r' : Row) (hr' : r' ∈ before ++ after) : (es ++ [e]).count r'.key ≤ r'.count := by
    rw [List.count_append, List.count_singleton, if_neg (by simpa using hother r' hr')]
    exact h.least r' (hmem r' hr')
  refine ⟨?_, ?_, ?_⟩
  · rw [hkeys]
    exact Keys.joined hr hqubits hdepth h.keys
  · intro r' hr'
    rcases List.mem_append.1 hr' with hb | hc
    · exact hleast r' (List.mem_append_left _ hb)
    · rcases List.mem_cons.1 hc with rfl | ha
      · have hmine := h.least r (by simp)
        have hone : [e].count r.key ≤ 1 := List.count_le_length
        show (es ++ [e]).count r.key ≤ r.count + 1
        rw [List.count_append]
        omega
      · exact hleast r' (List.mem_append_right _ ha)
  · have htotal := h.total
    rw [List.map_append, List.map_cons, List.sum_append, List.sum_cons] at htotal ⊢
    rw [List.length_append, ← htotal, List.length_singleton]
    dsimp only
    omega

theorem added (h : Tabulates es rows) {rows' : List Row} (hadd : addEntry rows e = .ok rows') :
    Tabulates (es ++ [e]) rows' := by
  have hadded := addEntry_added rows e
  rw [hadd] at hadded
  cases hadded with
  | opened hnew => exact h.opened hnew
  | joined before r after hrows hqubits hdepth =>
    subst hrows
    exact h.joined hqubits hdepth

theorem perm {rows' : List Row} (h : Tabulates es rows) (hperm : rows'.Perm rows) :
    Tabulates es rows' where
  keys := {
    nodup := (hperm.map Row.key).nodup_iff.2 h.keys.nodup
    mem := fun k hk => h.keys.mem k ((hperm.map Row.key).mem_iff.1 hk)
    covers := by
      simp only [(hperm.map Row.key).mem_iff]
      exact h.keys.covers
    kinds := by
      simp only [(hperm.map Row.key).mem_iff]
      exact h.keys.kinds }
  least := fun r hr => h.least r (hperm.mem_iff.1 hr)
  total := by rw [(hperm.map _).sum_eq, h.total]

theorem count_pos (h : Tabulates es rows) {r : Row} (hr : r ∈ rows) : 1 ≤ r.count :=
  (List.count_pos_iff.2 (h.keys.mem _ (List.mem_map_of_mem hr))).trans_le (h.least r hr)

end Tabulates

theorem tabulates_tallyFrom {directory : String} {names : List (List Char)} {es : List Entry}
    (hreads : Reads directory names es) {before : List Entry} {rows rows' : List Row}
    (hrows : Tabulates before rows) (htally : tallyFrom directory rows names = .ok rows') :
    Tabulates (before ++ es) rows' := by
  induction hreads generalizing before rows with
  | nil =>
    rw [tallyFrom_nil] at htally
    rw [List.append_nil, ← Except.ok.inj htally]
    exact hrows
  | @cons name e names es hname _ ih =>
    rw [tallyFrom_cons hname] at htally
    rw [List.append_cons]
    cases hadd : addEntry rows e with
    | error fault =>
      rw [hadd] at htally
      cases htally
    | ok rows'' =>
      rw [hadd] at htally
      exact ih (hrows.added hadd) htally

/-! ## exact counts -/

/-- within a number of qubits, either all entries have a depth or none has -/
def Unmixed (es : List Entry) : Prop :=
  ∀ e ∈ es, ∀ f ∈ es, e.qubits = f.qubits → (e.depth = none ↔ f.depth = none)

theorem Uniform.unmixed {es : List Entry} (h : Uniform es) : Unmixed es := by
  intro e he f hf _
  rcases h with h | h
  · exact iff_of_false (h e he) (h f hf)
  · exact iff_of_true (h e he) (h f hf)

theorem Keys.mem_iff_unmixed {es ks : List Entry} (h : Keys es ks) :
    (∀ e ∈ es, e ∈ ks) ↔ Unmixed es := by
  constructor
  · intro hall e he f hf
    exact h.kinds e (hall e he) f (hall f hf)
  · intro hunmixed e he
    obtain ⟨k, hk, hqubits, hdepth⟩ := h.covers e he
    have hkind := hunmixed k (h.mem k hk) e he hqubits
    rwa [← eq_of_covers hqubits hdepth hkind]

theorem Keys.sum_count {es ks : List Entry} (h : Keys es ks) :
    (ks.map es.count).sum = es.countP (· ∈ ks) := by
  have hset : ks.toFinset = es.toFinset.filter (· ∈ ks) := by
    ext k
    rw [Finset.mem_filter, List.mem_toFinset, List.mem_toFinset]
    exact ⟨fun hk => ⟨h.mem k hk, hk⟩, fun hk => hk.2⟩
  rw [← List.sum_toFinset _ h.nodup, hset, Finset.sum_filter_count_eq_countP]

/-- no row counts less than its entries; so all counts are exact if they add up to no more, which
is to say that every entry has a row of its own -/
theorem Tabulates.exact_iff {es : List Entry} {rows : List Row} (h : Tabulates es rows) :
    (∀ r ∈ rows, r.count = es.count r.key) ↔ Unmixed es := by
  have hsum : (rows.map fun r => es.count r.key).sum = es.countP (· ∈ rows.map Row.key) := by
    rw [← h.keys.sum_count, List.map_map]
    rfl
  rw [← h.keys.mem_iff_unmixed]
  constructor
  · intro hexact
    have hcount : es.countP (· ∈ rows.map Row.key) = es.length := by
      rw [← hsum, ← h.total]
      exact congrArg List.sum (List.map_congr_left fun r hr => (hexact r hr).symm)
    simpa using List.countP_eq_length.1 hcount
  · intro hall
    have hcount : es.countP (· ∈ rows.map Row.key) = es.length :=
      List.countP_eq_length.2 (by simpa using hall)
    intro r hr
    by_contra hne
    have hlt := List.sum_lt_sum (fun r => es.count r.key) (·.count) h.least
      ⟨r, hr, lt_of_le_of_ne (h.least r hr) (Ne.symm hne)⟩
    rw [hsum, hcount, h.total] at hlt
    exact lt_irrefl _ hlt

/-! ## sorting -/

theorem Row.le_iff (a b : Row) : a.le b = true ↔
    a.qubits < b.qubits ∨ a.qubits = b.qubits ∧ a.depth.getD 0 ≤ b.depth.getD 0 := by
  simp [Row.le]

/-- sorted rows are the same rows, by their qubits, and by depth too if all have one -/
theorem sortRows_sorted {rows sorted : List Row} (h : sortRows rows = .ok sorted) :
    sorted.Perm rows ∧ sorted.Pairwise (fun a b => a.qubits ≤ b.qubits) ∧
      ((∀ r ∈ rows, r.depth ≠ none) → sorted.Pairwise fun a b => a.le b = true) := by
  cases rows with
  | nil => cases h
  | cons r rows =>
    rw [sortRows] at h
    split_ifs at h with hsome hnone
    · obtain rfl := Except.ok.inj h
      have hle : ((r :: rows).mergeSort Row.le).Pairwise fun a b => a.le b = true := by
        apply List.pairwise_mergeSort
        · intro a b c hab hbc
          rw [Row.le_iff] at hab hbc ⊢
          omega
        · intro a b
          rw [Bool.or_eq_true, Row.le_iff, Row.le_iff]
          omega
      refine ⟨List.mergeSort_perm _ _, hle.imp ?_, fun _ => hle⟩
      intro a b hab
      rw [Row.le_iff] at hab
      omega
    · obtain rfl := Except.ok.inj h
      refine ⟨List.mergeSort_perm _ _, ?_, ?_⟩
      · refine (List.pairwise_mergeSort ?_ ?_ _).imp of_decide_eq_true
        · intro a b c hab hbc
          exact decide_eq_true ((of_decide_eq_true hab).trans (of_decide_eq_true hbc))
        · intro a b
          rw [Bool.or_eq_true, decide_eq_true_eq, decide_eq_true_eq]
          exact Nat.le_total a.qubits b.qubits
      · intro hall
        exact absurd (Option.isSome_iff_ne_none.2 (hall r List.mem_cons_self)) hsome

/-- fewer qubits, or as many and a smaller depth -/
def Entry.Before (a b : Entry) : Prop :=
  a.qubits < b.qubits ∨ a.qubits = b.qubits ∧ ∃ d ∈ a.depth, ∃ d' ∈ b.depth, d < d'

theorem Entry.Before.asymm {a b : Entry} (h : a.Before b) : ¬ b.Before a := by
  rintro (h' | ⟨h', d₁, hd₁, d₂, hd₂, hd⟩)
  · rcases h with h | ⟨h, _⟩
    · omega
    · omega
  · rcases h with h | ⟨_, d₃, hd₃, d₄, hd₄, hd'⟩
    · omega
    · obtain rfl : d₁ = d₄ := Option.some.inj (hd₁.symm.trans hd₄)
      obtain rfl : d₂ = d₃ := Option.some.inj (hd₂.symm.trans hd₃)
      omega

section
variable {directory : String} {names : List (List Char)} {es : List Entry}
  (hreads : Reads directory names es) {rs : List Row} (hrs : rows directory names = .ok rs)
include hreads hrs

theorem tabulates_rows : Tabulates es rs ∧ rs.Pairwise (fun a b => a.qubits ≤ b.qubits) ∧
    ((∀ r ∈ rs, r.depth ≠ none) → rs.Pairwise fun a b => a.le b = true) := by
  rw [rows, tally] at hrs
  cases htally : tallyFrom directory [] names with
  | error fault =>
    rw [htally] at hrs
    cases hrs
  | ok tallied =>
    rw [htally] at hrs
    obtain ⟨hperm, hqubits, hdepths⟩ := sortRows_sorted hrs
    have htable := tabulates_tallyFrom hreads .nil htally
    rw [List.nil_append] at htable
    refine ⟨htable.perm hperm, hqubits, ?_⟩
    intro hall
    exact hdepths fun r hr => hall r (hperm.mem_iff.2 hr)

theorem pairwise_before (huniform : Uniform es) :
    rs.Pairwise fun a b => a.key.Before b.key := by
  obtain ⟨htable, hqubits, hdepths⟩ := tabulates_rows hreads hrs
  have hdistinct : rs.Pairwise fun a b => a.key ≠ b.key := List.pairwise_map.1 htable.keys.nodup
  have hmem {r : Row} (hr : r ∈ rs) : r.key ∈ es := htable.keys.mem _ (List.mem_map_of_mem hr)
  rcases huniform with hsome | hnone
  · have hall (r : Row) (hr : r ∈ rs) : r.depth ≠ none := hsome r.key (hmem hr)
    refine ((hdepths hall).and hdistinct).imp_of_mem ?_
    rintro a b ha hb ⟨hle, hne⟩
    obtain ⟨d, hd⟩ := Option.ne_none_iff_exists'.1 (hall a ha)
    obtain ⟨d', hd'⟩ := Option.ne_none_iff_exists'.1 (hall b hb)
    rw [Row.le_iff, hd, hd'] at hle
    refine hle.imp_right ?_
    rintro ⟨hq, hdd⟩
    refine ⟨hq, d, hd, d', hd', lt_of_le_of_ne hdd ?_⟩
    rintro rfl
    exact hne (by rw [Row.key, Row.key, hq, hd, hd'])
  · refine (hqubits.and hdistinct).imp_of_mem ?_
    rintro a b ha hb ⟨hle, hne⟩
    refine .inl (lt_of_le_of_ne hle ?_)
    intro hq
    have hq : a.qubits = b.qubits := hq
    have hda : a.depth = none := hnone a.key (hmem ha)
    have hdb : b.depth = none := hnone b.key (hmem hb)
    exact hne (by rw [Row.key, Row.key, hq, hda, hdb])

end

/-- the table of the entries: their keys in strict order, each with the number of its entries -/
structure Grouped (es : List Entry) (rs : List Row) : Prop where
  keys : ∀ e, e ∈ rs.map Row.key ↔ e ∈ es
  sorted : rs.Pairwise fun a b => a.key.Before b.key
  counts : ∀ r ∈ rs, r.count = es.count r.key
  total : (rs.map (·.count)).sum = es.length

theorem grouped_rows {directory : String} {names : List (List Char)} {es : List Entry}
    (hreads : Reads directory names es) {rs : List Row} (hrs : rows directory names = .ok rs)
    (huniform : Uniform es) : Grouped es rs := by
  obtain ⟨htable, _⟩ := tabulates_rows hreads hrs
  refine ⟨?_, pairwise_before hreads hrs huniform, htable.exact_iff.2 huniform.unmixed,
    htable.total⟩
  intro e
  exact ⟨htable.keys.mem e, htable.keys.mem_iff_unmixed.2 huniform.unmixed e⟩

theorem Grouped.mem_iff {es : List Entry} {rs : List Row} (h : Grouped es rs) (r : Row) :
    r ∈ rs ↔ r.key ∈ es ∧ r.count = es.count r.key := by
  constructor
  · intro hr
    exact ⟨(h.keys _).1 (List.mem_map_of_mem hr), h.counts r hr⟩
  · rintro ⟨hr, hcount⟩
    obtain ⟨r', hr', hkey⟩ := List.mem_map.1 ((h.keys _).2 hr)
    have hcount' : r'.count = r.count := by rw [h.counts r' hr', hkey, hcount]
    obtain ⟨q, d, c⟩ := r
    obtain ⟨q', d', c'⟩ := r'
    obtain ⟨rfl, rfl⟩ := Entry.mk.inj hkey
    obtain rfl : c' = c := hcount'
    exact hr'

/-- the order of the entries does not matter -/
theorem Grouped.unique {es es' : List Entry} {rs rs' : List Row} (h : Grouped es rs)
    (h' : Grouped es' rs') (hes : es'.Perm es) : rs' = rs := by
  have : Std.Irrefl fun a b : Row => a.key.Before b.key := ⟨fun _ hab => hab.asymm hab⟩
  have : Std.Antisymm fun a b : Row => a.key.Before b.key :=
    ⟨fun _ _ hab hba => absurd hba hab.asymm⟩
  refine h'.sorted.eq_of_mem_iff h.sorted ?_
  intro r
  rw [h.mem_iff, h'.mem_iff, hes.mem_iff, hes.count_eq]

end CircuitBench.Summary
