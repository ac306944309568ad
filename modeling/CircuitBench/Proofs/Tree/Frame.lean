import CircuitBench.Proofs.Tree.Writing

/-!
# What writing a file leaves alone

A path that can be written leads to a name in a directory, and the name is free or that of a file
(`exists_target`).  A file put there is what the path leads to afterwards (`Target.read_put`).  At
every other place the tree is as it was, or a directory with at least the same names
(`Room.at?_put`), so the other files stay (`Room.file_put_iff`) and old ways still lead where they
led (`Room.walk_put`).  What could be written before can be written after (`writable_put`).
-/

namespace CircuitBench.Tree

/-! ## ways end at something -/

theorem isSome_at?_of_append {t : Tree} {a b : Place} (h : (t.at? (a ++ b)).isSome = true) :
    (t.at? a).isSome = true := by
  rw [at?_append] at h
  exact Option.isSome_of_isSome_bind h

theorem isSome_at?_walk {t : Tree} {here place : Place} {names : List String}
    (hhere : (t.at? here).isSome = true) (h : t.walk here names = .ok place) :
    (t.at? place).isSome = true := by
  induction names generalizing here with
  | nil => rwa [← Except.ok.inj h]
  | cons name names ih =>
    obtain ⟨u, hu⟩ := Option.isSome_iff_exists.1 hhere
    rw [walk, hu] at h
    cases u with
    | file content => cases h
    | dir es =>
      dsimp only at h
      split_ifs at h with hstay habove _ hname
      · exact ih hhere h
      · obtain ⟨last, hlast⟩ := here.dropLast_prefix
        rw [← hlast] at hhere
        exact ih (isSome_at?_of_append hhere) h
      · obtain ⟨v, hv⟩ := Option.isSome_iff_exists.1 hname
        exact ih (by rw [at?_entry hu hv]; rfl) h

/-! ## one entry put into a tree -/

theorem lookup_putEntry_of_ne {name other : String} (h : other ≠ name) (t : Tree)
    (es : List (String × Tree)) : (putEntry name t es).lookup other = es.lookup other := by
  have hb : (other == name) = false := by simpa using h
  induction es with
  | nil => rw [putEntry, List.lookup_cons, hb]
  | cons e es ih =>
    obtain ⟨k, u⟩ := e
    by_cases hk : k = name
    · rw [putEntry, if_pos hk, List.lookup_cons, List.lookup_cons, hk, hb]
    · rw [putEntry, if_neg hk, List.lookup_cons, List.lookup_cons, ih]

theorem isSome_lookup_putEntry {name other : String} {t : Tree} {es : List (String × Tree)}
    (h : (es.lookup other).isSome = true) : ((putEntry name t es).lookup other).isSome = true := by
  by_cases hn : other = name
  · rw [hn, lookup_putEntry]
    rfl
  · rwa [lookup_putEntry_of_ne hn]

theorem at?_put_cons_of_ne {name other : String} (h : other ≠ name) (t new : Tree)
    (place p : Place) : (t.put (name :: place) new).at? (other :: p) = t.at? (other :: p) := by
  rw [put, at?, at?, entries, lookup_putEntry_of_ne h]

theorem at?_put_cons {t u : Tree} {name : String} (h : t.entries.lookup name = some u) (new : Tree)
    (place p : Place) :
    (t.put (name :: place) new).at? (name :: p) = (u.put place new).at? p := by
  rw [put, at?, entries, lookup_putEntry, h]
  rfl

/-! ## room for a file -/

/-- the name is free in the directory at `above`, or it is that of a file -/
def Room (t : Tree) (above : Place) (name : String) : Prop :=
  ∃ es, t.at? above = some (.dir es) ∧ ∀ fs, es.lookup name ≠ some (.dir fs)

theorem Room.of_cons {t : Tree} {first name : String} {above : Place}
    (h : Room t (first :: above) name) :
    ∃ es u, t = .dir es ∧ es.lookup first = some u ∧ Room u above name := by
  obtain ⟨fs, hat, hfs⟩ := h
  cases t with
  | file content => cases hat
  | dir es =>
    cases hu : es.lookup first with
    | none =>
      rw [at?, entries, hu] at hat
      cases hat
    | some u =>
      rw [at?, entries, hu] at hat
      exact ⟨es, u, rfl, hu, fs, hat, hfs⟩

section
variable {t : Tree} {above : Place} {name : String} (h : Room t above name) (content : Content)
include h

theorem Room.at?_ne_dir (fs : List (String × Tree)) : t.at? (above ++ [name]) ≠ some (.dir fs) := by
  obtain ⟨es, hat, hes⟩ := h
  rw [at?_append, hat]
  show at? [name] (.dir es) ≠ some (.dir fs)
  rw [at?, entries]
  cases hu : es.lookup name with
  | none => exact (Option.some_ne_none _).symm
  | some u => exact fun hn => hes fs (hu.trans hn)

/-- another place is as it was, or it is a directory that has got a name more -/
theorem Room.at?_put {p : Place} (hp : p ≠ above ++ [name]) :
    (t.put (above ++ [name]) (.file content)).at? p = t.at? p ∨
      ∃ es es', t.at? p = some (.dir es) ∧
        (t.put (above ++ [name]) (.file content)).at? p = some (.dir es') ∧
        ∀ n, (es.lookup n).isSome = true → (es'.lookup n).isSome = true := by
  induction above generalizing t p with
  | nil =>
    obtain ⟨es, hat, hes⟩ := h
    obtain rfl : t = .dir es := Option.some.inj hat
    cases p with
    | nil => exact .inr ⟨es, _, rfl, rfl, fun _ => isSome_lookup_putEntry⟩
    | cons m p =>
      left
      by_cases hm : m = name
      · -- nothing is below the file, and nothing was there before
        subst hm
        have hp' : p ≠ [] := fun hnil => hp (by rw [hnil]; rfl)
        obtain ⟨q, qs, rfl⟩ := List.exists_cons_of_ne_nil hp'
        have hnew : (put (.dir es) [m] (.file content)).at? (m :: q :: qs) = none := by
          rw [put, at?, entries, lookup_putEntry]
          rfl
        have hold : (Tree.dir es).at? (m :: q :: qs) = none := by
          rw [at?, entries]
          rcases hu : es.lookup m with _ | ⟨old⟩ | ⟨fs⟩
          · rfl
          · rfl
          · exact absurd hu (hes fs)
        rw [List.nil_append, hnew, hold]
      · exact at?_put_cons_of_ne hm _ _ _ _
  | cons first above ih =>
    obtain ⟨es, u, rfl, hu, hroom⟩ := h.of_cons
    cases p with
    | nil => exact .inr ⟨es, _, rfl, rfl, fun _ => isSome_lookup_putEntry⟩
    | cons m p =>
      by_cases hm : m = first
      · subst hm
        have hat : (Tree.dir es).at? (m :: p) = u.at? p := by rw [at?, entries, hu]
        rw [List.cons_append, at?_put_cons hu, hat]
        exact ih hroom fun hp' => hp (by rw [hp', List.cons_append])
      · exact .inl (at?_put_cons_of_ne hm _ _ _ _)

/-- every other file stays, and there is no new one -/
theorem Room.file_put_iff {p : Place} (hp : p ≠ above ++ [name]) (old : Content) :
    (t.put (above ++ [name]) (.file content)).at? p = some (.file old) ↔
      t.at? p = some (.file old) := by
  rcases h.at?_put content hp with heq | ⟨es, es', hold, hnew, _⟩
  · rw [heq]
  · simp [hold, hnew]

theorem Room.dir_put {here : Place} {es : List (String × Tree)}
    (hhere : t.at? here = some (.dir es)) :
    ∃ es', (t.put (above ++ [name]) (.file content)).at? here = some (.dir es') ∧
      ∀ n, (es.lookup n).isSome = true → (es'.lookup n).isSome = true := by
  have hne : here ≠ above ++ [name] := by
    rintro rfl
    exact h.at?_ne_dir es hhere
  rcases h.at?_put content hne with heq | ⟨es₀, es', hold, hnew, hsub⟩
  · exact ⟨es, heq.trans hhere, fun _ hn => hn⟩
  · obtain rfl : es = es₀ := by simpa using hhere.symm.trans hold
    exact ⟨es', hnew, hsub⟩

-- names are only added to directories, so no step of the way is lost
theorem Room.walk_put {here place : Place} {names : List String}
    (hwalk : t.walk here names = .ok place) :
    (t.put (above ++ [name]) (.file content)).walk here names = .ok place := by
  induction names generalizing here with
  | nil => exact hwalk
  | cons n names ih =>
    rw [walk] at hwalk
    rcases hu : t.at? here with _ | ⟨old⟩ | ⟨es⟩
    · rw [hu] at hwalk
      cases hwalk
    · rw [hu] at hwalk
      cases hwalk
    · obtain ⟨es', hnew, hsub⟩ := h.dir_put content hu
      rw [hu] at hwalk
      rw [walk, hnew]
      dsimp only at hwalk ⊢
      split_ifs at hwalk with hstay habove hlong hname
      · rw [if_pos hstay]
        exact ih hwalk
      · rw [if_neg hstay, if_pos habove]
        exact ih hwalk
      · rw [if_neg hstay, if_neg habove, if_neg hlong, if_pos (hsub n hname)]
        exact ih hwalk

end

/-! ## paths that can be written -/

/-- the path leads to the name in the directory at `above`, where there is room for a file -/
structure Target (t : Tree) (path : String) (above : Place) (name : String) : Prop where
  check : checkPath path = .ok ()
  way : ∃ front, Path.parts path = front ++ [name] ∧ t.walk [] front = .ok above
  room : Room t above name
  ne_here : ¬ (name = "" ∨ name = ".")
  ne_above : name ≠ ".."
  size : ¬ nameLimit < name.utf8ByteSize

theorem Target.of_name {t : Tree} {name : String} (hname : IsName name) (hroom : Room t [] name) :
    Target t name [] name where
  check :=
    (checkPath_eq_ok_iff name).2 ⟨hname.null, hname.ne_empty, hname.size.trans (by decide)⟩
  way := ⟨[], Path.parts_of_notMem hname.slash, rfl⟩
  room := hroom
  ne_here := not_or.2 ⟨hname.ne_empty, hname.ne_here⟩
  ne_above := hname.ne_above
  size := Nat.not_lt.2 hname.size

theorem exists_target {t : Tree} {path : String} {place : Place}
    (h : t.writable path = .ok place) :
    ∃ above name, place = above ++ [name] ∧ Target t path above name := by
  rw [writable] at h
  cases hcheck : checkPath path with
  | error fault =>
    rw [hcheck] at h
    cases h
  | ok =>
    simp only [hcheck, bind, Except.bind, pure, Except.pure, throw, throwThe,
      MonadExceptOf.throw] at h
    cases hwalk : t.walk [] (Path.parts path).dropLast with
    | error fault =>
      rw [hwalk] at h
      cases h
    | ok above =>
      obtain ⟨u, hu⟩ := Option.isSome_iff_exists.1 (isSome_at?_walk rfl hwalk)
      simp only [hwalk, hu, Option.getD_some] at h
      split_ifs at h with hdir hname hsize
      have hne : Path.parts path ≠ [] := by simp [Path.parts, Text.splitOn_ne_nil]
      have hparts : Path.parts path =
          (Path.parts path).dropLast ++ [(Path.parts path).getLastD ""] := by
        rw [List.getLastD_eq_getLast?, List.getLast?_eq_some_getLast hne]
        exact (List.dropLast_append_getLast hne).symm
      cases u with
      | file content => exact absurd rfl hdir
      | dir es =>
        split at h
        · cases h
        · rename_i hfree
          refine ⟨above, _, (Except.ok.inj h).symm, ?_⟩
          exact
            { check := hcheck
              way := ⟨_, hparts, hwalk⟩
              room := ⟨es, hu, fun fs hfs => hfree fs hfs⟩
              ne_here := fun hn => hname (hn.imp_right .inl)
              ne_above := fun hn => hname (.inr (.inr hn))
              size := hsize }

/-- what the path leads to is read -/
theorem Target.read_eq {t : Tree} {path name : String} {above : Place} {content : Content}
    (h : Target t path above name) (hat : t.at? (above ++ [name]) = some (.file content)) :
    t.read path = .ok content := by
  obtain ⟨front, hparts, hfront⟩ := h.way
  obtain ⟨es, hes, _⟩ := h.room
  have hentry : (es.lookup name).isSome = true := by
    have hlast := hat
    rw [at?_append, hes] at hlast
    have hlast : at? [name] (.dir es) = some (.file content) := hlast
    rw [at?, entries] at hlast
    cases hu : es.lookup name with
    | none =>
      rw [hu] at hlast
      cases hlast
    | some u => rfl
  have hstep : t.walk above [name] = .ok (above ++ [name]) := by
    rw [walk, hes]
    dsimp only
    rw [if_neg h.ne_here, if_neg h.ne_above, if_neg h.size, if_pos hentry, walk]
  have hlookup : t.lookup path = .ok (.file content) := by
    rw [lookup_eq_ok_iff, hparts, walk_append, hfront]
    exact ⟨h.check, above ++ [name], hstep, hat⟩
  rw [read, hlookup]
  rfl

/-- there is still room after another file has been written -/
theorem Room.put {t : Tree} {above above' : Place} {name name' : String} (h : Room t above name)
    (h' : Room t above' name') (content : Content) :
    Room (t.put (above ++ [name]) (.file content)) above' name' := by
  have hdir' := h'.at?_ne_dir
  obtain ⟨es, hes, _⟩ := h'
  obtain ⟨es', hdir, _⟩ := h.dir_put content hes
  refine ⟨es', hdir, ?_⟩
  intro fs hfs
  have hthere := at?_entry hdir hfs
  by_cases hsame : above' ++ [name'] = above ++ [name]
  · rw [hsame, Tree.at?_put] at hthere
    cases hthere
  · rcases h.at?_put content hsame with heq | ⟨gs, _, hold, _⟩
    · exact hdir' fs (heq.symm.trans hthere)
    · exact hdir' gs hold

theorem Target.writable {t : Tree} {path name : String} {above : Place}
    (h : Target t path above name) : t.writable path = .ok (above ++ [name]) := by
  obtain ⟨front, hparts, hwalk⟩ := h.way
  obtain ⟨es, hes, hfree⟩ := h.room
  have hname : ¬ (name = "" ∨ name = "." ∨ name = "..") := by
    rintro (hn | hn | hn)
    · exact h.ne_here (.inl hn)
    · exact h.ne_here (.inr hn)
    · exact h.ne_above hn
  rw [Tree.writable, h.check, hparts]
  simp only [List.getLastD_concat, List.dropLast_concat, hwalk, hes, bind, Except.bind,
    Option.getD_some, isDir, entries, Bool.not_true, Bool.false_eq_true, if_false, if_neg hname,
    if_neg h.size]
  rcases hu : es.lookup name with _ | ⟨content⟩ | ⟨fs⟩
  · rfl
  · rfl
  · exact absurd hu (hfree fs)

/-- writing a file leaves the ways to other files, and the way to this one -/
theorem Target.put {t : Tree} {path path' name name' : String} {above above' : Place}
    (h : Target t path above name) (h' : Target t path' above' name') (content : Content) :
    Target (t.put (above ++ [name]) (.file content)) path' above' name' where
  check := h'.check
  way := by
    obtain ⟨front, hparts, hwalk⟩ := h'.way
    exact ⟨front, hparts, h.room.walk_put content hwalk⟩
  room := h.room.put h'.room content
  ne_here := h'.ne_here
  ne_above := h'.ne_above
  size := h'.size

theorem Target.read_put {t : Tree} {path name : String} {above : Place}
    (h : Target t path above name) (content : Content) :
    (t.put (above ++ [name]) (.file content)).read path = .ok content :=
  (h.put h content).read_eq (at?_put ..)

theorem writable_put {t : Tree} {path path' : String} {place place' : Place}
    (h : t.writable path = .ok place) (h' : t.writable path' = .ok place') (content : Content) :
    (t.put place (.file content)).writable path' = .ok place' := by
  obtain ⟨above, name, rfl, htarget⟩ := exists_target h
  obtain ⟨above', name', rfl, htarget'⟩ := exists_target h'
  exact (htarget.put htarget' content).writable

theorem file_put_iff {t : Tree} {path : String} {place p : Place}
    (h : t.writable path = .ok place) (hp : p ≠ place) (content old : Content) :
    (t.put place (.file content)).at? p = some (.file old) ↔ t.at? p = some (.file old) := by
  obtain ⟨above, name, rfl, htarget⟩ := exists_target h
  exact htarget.room.file_put_iff content hp old

theorem read_of_writable {t : Tree} {path : String} {place : Place} {content : Content}
    (h : t.writable path = .ok place) (hat : t.at? place = some (.file content)) :
    t.read path = .ok content := by
  obtain ⟨above, name, rfl, htarget⟩ := exists_target h
  exact htarget.read_eq hat

end CircuitBench.Tree
