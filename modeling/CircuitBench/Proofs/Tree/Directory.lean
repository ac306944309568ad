import CircuitBench.Proofs.Tree.Writing

/-!
# Listing a directory by a path to it

A directory can be given by any path that leads to it.  When a pattern for names is put behind the
path, the slashes at its end go (`parent_pattern`); without them it leads to the same directory
(`lookup_bare`).  So a path without wildcards lists the entries of its own directory, whatever form
it has (`baseNames_expand`).
-/

namespace CircuitBench

namespace Path

/-- the path without the slashes at its end -/
def bare (path : String) : String := String.ofList (path.toList.rdropWhile (· = '/'))

theorem toList_bare (path : String) : (bare path).toList = path.toList.rdropWhile (· = '/') :=
  String.toList_ofList

theorem bare_ne_empty {path : String} (h : ∃ c ∈ path.toList, c ≠ '/') :
    (bare path).toList ≠ [] := by
  obtain ⟨c, hc, hne⟩ := h
  rw [toList_bare, Ne, List.rdropWhile_eq_nil_iff]
  intro hall
  exact hne (of_decide_eq_true (hall c hc))

theorem endsWith_bare (path : String) : (bare path).endsWith "/" = false := by
  rw [String.endsWith_eq_endsWith_toSlice, String.Slice.endsWith_string_eq_false_iff,
    String.copy_toSlice, toList_bare]
  rintro ⟨front, hfront⟩
  have hne : path.toList.rdropWhile (· = '/') ≠ [] := by
    rw [← hfront]
    exact List.append_ne_nil_of_right_ne_nil _ (List.cons_ne_nil _ _)
  have hlast := List.rdropWhile_last_not _ _ hne
  have hslash : (path.toList.rdropWhile (· = '/')).getLast hne = '/' := by
    simp only [← hfront]
    exact List.getLast_concat
  exact hlast (decide_eq_true hslash)

section
variable {path name : String} (hpath : ∃ c ∈ path.toList, c ≠ '/') (hn : '/' ∉ name.toList)
include hpath hn

theorem parent_pattern : parent (path ++ "/" ++ name) = bare path := by
  have hhead : ('/' :: path.toList.reverse).dropWhile (· = '/')
      = (path.toList.rdropWhile (· = '/')).reverse := by
    rw [List.dropWhile_cons_of_pos (by simp), List.rdropWhile, List.reverse_reverse]
  have hne := bare_ne_empty hpath
  rw [toList_bare] at hne
  rw [parent, parentChars, cutBack_slash hn]
  simp only [hhead]
  split
  · rename_i hnil
    exact absurd (List.reverse_eq_nil_iff.1 hnil) hne
  · rw [List.reverse_reverse, bare]

theorem join_bare : join (bare path) name = bare path ++ "/" ++ name := by
  rw [join, isAbsolute_of_notMem hn, isEmpty_eq_false (bare_ne_empty hpath), endsWith_bare]
  rfl

end

end Path

namespace Tree

variable {t : Tree} {es : List (String × Tree)}

theorem lookup_of_slash {dir : String} (h0 : dir ≠ "") (h : t.lookup (dir ++ "/") = .ok (.dir es)) :
    t.lookup dir = .ok (.dir es) := by
  have hdir : dir ++ "/" = dir ++ "/" ++ "" := String.append_empty.symm
  rw [hdir, lookup_eq_ok_iff] at h
  obtain ⟨hcheck, place, hwalk, hat⟩ := h
  rw [Path.parts_slash, walk_append] at hwalk
  rw [lookup_eq_ok_iff]
  refine ⟨checkPath_of_slash h0 hcheck, ?_⟩
  cases hfront : t.walk [] (Path.parts dir) with
  | error fault =>
    rw [hfront] at hwalk
    cases hwalk
  | ok here =>
    rw [hfront] at hwalk
    have hwalk : t.walk here [""] = .ok place := hwalk
    -- an empty part stays where it is, in a directory
    rw [walk] at hwalk
    cases hhere : t.at? here with
    | none =>
      rw [hhere] at hwalk
      cases hwalk
    | some u =>
      rw [hhere] at hwalk
      cases u with
      | file content => cases hwalk
      | dir es' =>
        have hplace : here = place := Except.ok.inj hwalk
        rw [hplace] at hhere ⊢
        exact ⟨place, rfl, hat⟩

theorem lookup_bare {path : String} (hpath : ∃ c ∈ path.toList, c ≠ '/')
    (h : t.lookup path = .ok (.dir es)) : t.lookup (Path.bare path) = .ok (.dir es) := by
  have hne := Path.bare_ne_empty hpath
  rw [Path.toList_bare] at hne
  rw [Path.bare]
  rw [← String.ofList_toList (s := path)] at h
  clear hpath
  generalize path.toList = cs at h hne ⊢
  -- from the end of the path, one slash after the other
  induction cs using List.reverseRecOn with
  | nil => exact absurd rfl hne
  | append_singleton cs c ih =>
    by_cases hc : c = '/'
    · subst hc
      rw [List.rdropWhile_concat_pos _ _ _ (by simp)] at hne ⊢
      refine ih ?_ hne
      apply lookup_of_slash
      · intro hempty
        rw [String.ofList_eq_empty_iff.1 hempty] at hne
        exact hne rfl
      · rw [String.ofList_append] at h
        exact h
    · rwa [List.rdropWhile_concat_neg _ _ _ (by simpa using hc)]

theorem isPattern_bare {path : String} (h : NamePattern.isPattern path.toList = false) :
    NamePattern.isPattern (Path.bare path).toList = false := by
  rw [Path.toList_bare]
  rw [NamePattern.isPattern, List.any_eq_false] at h ⊢
  intro c hc
  exact h c ((List.rdropWhile_prefix _ _).subset hc)

/-- the path has no wildcard and leads to a directory with the entries -/
structure Directory (t : Tree) (path : String) (es : List (String × Tree)) : Prop where
  lookup : t.lookup path = .ok (.dir es)
  plain : NamePattern.isPattern path.toList = false
  /-- it is not made of slashes only -/
  proper : ∃ c ∈ path.toList, c ≠ '/'
  slash : ∀ e ∈ es, '/' ∉ e.1.toList

theorem baseNames_expand {path pattern : String} (h : t.Directory path es)
    (hp : '/' ∉ pattern.toList) (hpattern : NamePattern.isPattern pattern.toList = true) :
    (t.expand (path ++ "/" ++ pattern)).map (fun f => Path.baseNameChars f.toList)
      = ((es.map Prod.fst).filter (nameFits pattern)).map String.toList := by
  have hempty := Path.isEmpty_eq_false (Path.bare_ne_empty h.proper)
  have hentries : t.entriesAt (Path.bare path) = es := by
    rw [entriesAt, hempty, if_neg Bool.false_ne_true, lookup_bare h.proper h.lookup]
    rfl
  have hnot : ¬ (Path.bare path ≠ path ++ "/" ++ pattern ∧
      NamePattern.isPattern (Path.bare path).toList = true) := by
    rw [isPattern_bare h.plain]
    simp
  rw [expand, expandFrom]
  simp only [Path.parent_pattern h.proper hp, Path.baseName_slash hp, hempty, Bool.false_eq_true,
    if_false, if_neg hnot, List.flatMap_singleton]
  rw [namesFitting, if_pos hpattern, hentries, List.filter_map, List.map_map, List.map_map,
    List.map_map]
  simp only [Bool.not_false, Bool.true_or, Bool.true_and]
  apply List.map_congr_left
  intro e he
  have hslash := h.slash e (List.mem_filter.1 he).1
  show Path.baseNameChars (Path.join (Path.bare path) e.1).toList = e.1.toList
  rw [Path.join_bare h.proper hslash, Path.baseNameChars_slash hslash]

end Tree

end CircuitBench
