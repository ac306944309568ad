import CircuitBench.Tree.Basic
import CircuitBench.Proofs.Tree.Listing

/-!
# Ways through a tree

Following the parts of a path is done one after the other (`walk_append`), so the directory above
something that can be found can be found too (`pathExists_of_slash`).  A part that is the name of an
entry leads to it (`walk_name`), and `..` leads back (`walk_above`).  A path without a slash names
an entry of the tree itself (`writable_of_notMem`), and putting a file there twice leaves the
second one (`put_put`).
-/

namespace CircuitBench

/-! ## the parts of a path -/

namespace Text

theorem splitOn_append (sep : Char) (a b : List Char) :
    splitOn sep (a ++ sep :: b) = splitOn sep a ++ splitOn sep b := by
  induction a with
  | nil => simp [splitOn]
  | cons c a ih =>
    by_cases hc : c = sep
    · simp [splitOn, hc, ih]
    · obtain ⟨field, fields, hf⟩ := List.exists_cons_of_ne_nil (splitOn_ne_nil sep a)
      simp [splitOn, hc, ih, hf]

theorem splitOn_of_notMem {sep : Char} {cs : List Char} (h : sep ∉ cs) : splitOn sep cs = [cs] := by
  induction cs with
  | nil => rfl
  | cons c cs ih =>
    obtain ⟨hc, hcs⟩ := not_or.1 fun h' => h (List.mem_cons.2 h')
    rw [splitOn, if_neg (Ne.symm hc), ih hcs]

end Text

namespace Path

theorem parts_slash (dir name : String) : parts (dir ++ "/" ++ name) = parts dir ++ parts name := by
  rw [parts, toList_slash, Text.splitOn_append, List.map_append, parts, parts]

theorem parts_of_notMem {p : String} (h : '/' ∉ p.toList) : parts p = [p] := by
  rw [parts, Text.splitOn_of_notMem h, List.map_singleton, String.ofList_toList]

end Path

namespace Tree

/-! ## finding -/

theorem walk_append (t : Tree) (here : Place) (xs ys : List String) :
    t.walk here (xs ++ ys) = t.walk here xs >>= fun place => t.walk place ys := by
  induction xs generalizing here with
  | nil => rfl
  | cons name xs ih =>
    rw [List.cons_append, walk, walk]
    cases t.at? here with
    | none => rfl
    | some u =>
      cases u with
      | file content => rfl
      | dir es =>
        dsimp only
        split_ifs
        · exact ih here
        · exact ih here.dropLast
        · rfl
        · exact ih (here ++ [name])
        · rfl

/-- what can be followed further is there -/
theorem isSome_at?_of_walk {t : Tree} {here place : Place} {ys : List String} (hys : ys ≠ [])
    (h : t.walk here ys = .ok place) : (t.at? here).isSome = true := by
  obtain ⟨y, ys, rfl⟩ := List.exists_cons_of_ne_nil hys
  cases hat : t.at? here with
  | none =>
    rw [walk, hat] at h
    cases h
  | some u => rfl

theorem checkPath_eq_ok_iff (path : String) :
    checkPath path = .ok () ↔
      Char.ofNat 0 ∉ path.toList ∧ path ≠ "" ∧ path.utf8ByteSize ≤ pathLimit := by
  rw [checkPath]
  split_ifs with h1 h2 h3
  · simp_all
  · simp_all
  · simp_all
  · simp_all

theorem checkPath_of_slash {dir name : String} (h0 : dir ≠ "")
    (h : checkPath (dir ++ "/" ++ name) = .ok ()) : checkPath dir = .ok () := by
  rw [checkPath_eq_ok_iff] at h ⊢
  obtain ⟨hnull, _, hsize⟩ := h
  refine ⟨?_, h0, ?_⟩
  · intro hm
    exact hnull (by rw [Path.toList_slash]; exact List.mem_append_left _ hm)
  · rw [String.utf8ByteSize_append, String.utf8ByteSize_append] at hsize
    omega

theorem lookup_eq_ok_iff (t : Tree) (path : String) (u : Tree) :
    t.lookup path = .ok u ↔ checkPath path = .ok () ∧
      ∃ place, t.walk [] (Path.parts path) = .ok place ∧ t.at? place = some u := by
  rw [lookup, locate]
  cases checkPath path with
  | error fault => simp [bind, Except.bind]
  | ok =>
    cases t.walk [] (Path.parts path) with
    | error fault => simp [bind, Except.bind]
    | ok place =>
      cases hat : t.at? place with
      | none => simp [bind, Except.bind, throw, throwThe, MonadExceptOf.throw, hat]
      | some v => simp [bind, Except.bind, pure, Except.pure, hat]

theorem pathExists_iff (t : Tree) (path : String) :
    t.pathExists path = true ↔ ∃ u, t.lookup path = .ok u := by
  rw [pathExists]
  cases t.lookup path with
  | error fault => simp [Except.toBool]
  | ok u => simp [Except.toBool]

/-- the directory above something that is there -/
theorem pathExists_of_slash {t : Tree} {dir name : String} (h0 : dir ≠ "")
    (h : t.pathExists (dir ++ "/" ++ name) = true) : t.pathExists dir = true := by
  obtain ⟨u, hu⟩ := (pathExists_iff ..).1 h
  obtain ⟨hcheck, place, hwalk, _⟩ := (lookup_eq_ok_iff ..).1 hu
  rw [Path.parts_slash, walk_append] at hwalk
  cases hdir : t.walk [] (Path.parts dir) with
  | error fault =>
    rw [hdir] at hwalk
    cases hwalk
  | ok above =>
    rw [hdir] at hwalk
    have hsome := isSome_at?_of_walk (by simp [Path.parts, Text.splitOn_ne_nil]) hwalk
    obtain ⟨v, hv⟩ := Option.isSome_iff_exists.1 hsome
    have hlookup := (lookup_eq_ok_iff ..).2 ⟨checkPath_of_slash h0 hcheck, above, hdir, hv⟩
    exact (pathExists_iff ..).2 ⟨v, hlookup⟩

/-! ## names of entries -/

/-- a name that an entry of a directory can have -/
structure IsName (name : String) : Prop where
  ne_empty : name ≠ ""
  ne_here : name ≠ "."
  ne_above : name ≠ ".."
  slash : '/' ∉ name.toList
  null : Char.ofNat 0 ∉ name.toList
  size : name.utf8ByteSize ≤ nameLimit

instance : DecidablePred IsName := fun name =>
  decidable_of_iff (name ≠ "" ∧ name ≠ "." ∧ name ≠ ".." ∧ '/' ∉ name.toList ∧
      Char.ofNat 0 ∉ name.toList ∧ name.utf8ByteSize ≤ nameLimit)
    ⟨fun ⟨h1, h2, h3, h4, h5, h6⟩ => ⟨h1, h2, h3, h4, h5, h6⟩,
      fun ⟨h1, h2, h3, h4, h5, h6⟩ => ⟨h1, h2, h3, h4, h5, h6⟩⟩

/-- the entries of a directory have names, and each name is there once -/
structure Named (es : List (String × Tree)) : Prop where
  names : ∀ e ∈ es, IsName e.1
  nodup : (es.map Prod.fst).Nodup

theorem Named.lookup {es : List (String × Tree)} (h : Named es) {name : String} {t : Tree}
    (hm : (name, t) ∈ es) : es.lookup name = some t := by
  obtain ⟨front, back, rfl⟩ := List.append_of_mem hm
  have hnodup := h.nodup
  rw [List.map_append, List.map_cons, List.nodup_append] at hnodup
  rw [List.lookup_eq_some_iff]
  refine ⟨front, back, rfl, ?_⟩
  intro e he
  have hne := hnodup.2.2 e.1 (List.mem_map_of_mem he) name List.mem_cons_self
  simpa using hne.symm

theorem at?_append (t : Tree) (a b : Place) : t.at? (a ++ b) = (t.at? a).bind (at? b) := by
  induction a generalizing t with
  | nil => rfl
  | cons name a ih =>
    rw [List.cons_append, at?, at?]
    cases t.entries.lookup name with
    | none => rfl
    | some u => exact ih u

theorem at?_entry {t u : Tree} {here : Place} {es : List (String × Tree)} {name : String}
    (hat : t.at? here = some (.dir es)) (hes : es.lookup name = some u) :
    t.at? (here ++ [name]) = some u := by
  rw [at?_append, hat]
  show at? [name] (.dir es) = some u
  rw [at?, entries, hes]
  rfl

section
variable {t : Tree} {here : Place} {es : List (String × Tree)} (hat : t.at? here = some (.dir es))
include hat

theorem walk_name {name : String} (hname : IsName name) (hes : (es.lookup name).isSome = true)
    (rest : List String) : t.walk here (name :: rest) = t.walk (here ++ [name]) rest := by
  have hsize := hname.size
  rw [walk, hat]
  dsimp only
  rw [if_neg (not_or.2 ⟨hname.ne_empty, hname.ne_here⟩), if_neg hname.ne_above,
    if_neg (by omega), if_pos hes]

theorem walk_above (rest : List String) :
    t.walk here (".." :: rest) = t.walk here.dropLast rest := by
  rw [walk, hat]
  rfl

end

/-- a name leads to the entry that has it -/
theorem lookup_name {es : List (String × Tree)} {name : String} {u : Tree} (hname : IsName name)
    (hu : es.lookup name = some u) : (Tree.dir es).lookup name = .ok u := by
  have hroot : (Tree.dir es).at? [] = some (.dir es) := rfl
  have hlimit : nameLimit ≤ pathLimit := by decide
  rw [lookup_eq_ok_iff, checkPath_eq_ok_iff]
  refine ⟨⟨hname.null, hname.ne_empty, hname.size.trans hlimit⟩, [name], ?_, at?_entry hroot hu⟩
  rw [Path.parts_of_notMem hname.slash, walk_name hroot hname (by rw [hu]; rfl)]
  rfl

/-! ## writing -/

theorem putEntry_putEntry (name : String) (a b : Tree) (es : List (String × Tree)) :
    putEntry name b (putEntry name a es) = putEntry name b es := by
  induction es with
  | nil => simp [putEntry]
  | cons e es ih =>
    by_cases he : e.1 = name
    · simp [putEntry, he]
    · simp [putEntry, he, ih]

theorem put_put (t : Tree) (place : Place) (a b : Tree) :
    (t.put place a).put place b = t.put place b := by
  induction place generalizing t with
  | nil => rfl
  | cons name place ih => simp [put, entries, lookup_putEntry, putEntry_putEntry, ih]

theorem appendText_put (t : Tree) (place : Place) (before text : String) :
    (t.put place (.file (.text before))).appendText place text
      = t.put place (.file (.text (before ++ text))) := by
  rw [appendText, at?_put]
  exact put_put t place _ _

theorem mem_keys_putEntry {name file : String} {t : Tree} {es : List (String × Tree)} :
    file ∈ (putEntry name t es).map Prod.fst ↔ file = name ∨ file ∈ es.map Prod.fst := by
  induction es with
  | nil => simp [putEntry]
  | cons e es ih =>
    by_cases he : e.1 = name
    · simp [putEntry, he]
    · simp only [putEntry, if_neg he, List.map_cons, List.mem_cons, ih]
      exact or_left_comm

theorem nodup_keys_putEntry {name : String} {t : Tree} {es : List (String × Tree)}
    (h : (es.map Prod.fst).Nodup) : ((putEntry name t es).map Prod.fst).Nodup := by
  induction es with
  | nil => simp [putEntry]
  | cons e es ih =>
    rw [List.map_cons, List.nodup_cons] at h
    by_cases he : e.1 = name
    · simpa [putEntry, he] using h
    · rw [putEntry, if_neg he, List.map_cons, List.nodup_cons, mem_keys_putEntry]
      exact ⟨not_or.2 ⟨he, h.1⟩, ih h.2⟩

/-- a name without a slash is written in the tree itself -/
theorem writable_of_notMem {t : Tree} {path : String} {place : Place} (hp : '/' ∉ path.toList)
    (h : t.writable path = .ok place) : place = [path] := by
  rw [writable, Path.parts_of_notMem hp] at h
  cases hcheck : checkPath path with
  | error fault =>
    rw [hcheck] at h
    cases h
  | ok =>
    simp only [hcheck, List.getLastD_cons, List.getLastD_nil, List.dropLast_singleton, walk,
      at?_nil, Option.getD_some, bind, Except.bind, pure, Except.pure, throw, throwThe,
      MonadExceptOf.throw, List.nil_append] at h
    split_ifs at h
    split at h
    · cases h
    · exact (Except.ok.inj h).symm

end Tree

end CircuitBench
