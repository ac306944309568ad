import CircuitBench.Conformance.Suite
import CircuitBench.Proofs.Session

/-!
# Where the examples of the suite are

The suite looks up its files from its own directory (`root`).  In a session that is arranged as it
should be, the categories are found there (`Arranged.categories_eq`), and a path below a category
leads to the entry of its name, or nowhere (`Arranged.lookup_path`).
-/

namespace CircuitBench.Conformance

/-- the way from the suite to the examples -/
def root : String := "test/../examples"

structure Example where
  category : String
  file : String
  deriving DecidableEq

namespace Example

/-- where the file is, seen from the suite -/
def path (x : Example) : String := root ++ "/" ++ x.category ++ "/" ++ x.file

def place (x : Example) : Place := [categoriesDir, x.category, x.file]

end Example

def isExample (file : String) : Bool := ".qasm".toList.isSuffixOf file.toList

/-- where things must be and what they are called: the examples are below the directory of the
categories, and the names are names of files -/
structure Arranged (σ : Session) (cats : List (String × Tree)) : Prop where
  suite : ∃ es, σ.tree.at? [home] = some (.dir es)
  dir : σ.tree.at? [categoriesDir] = some (.dir cats)
  named : Tree.Named cats
  files : ∀ c es, (c, Tree.dir es) ∈ cats → Tree.Named es
  order : ∀ names, (σ.order names).Perm names

section
variable {σ : Session} {cats es : List (String × Tree)} {c f : String}

theorem Example.path_eq (x : Example) :
    x.path = root ++ "/" ++ (x.category ++ "/" ++ x.file) := by
  simp only [Example.path, String.append_assoc]

theorem isName_home : Tree.IsName home := by decide +kernel

theorem isName_categoriesDir : Tree.IsName categoriesDir := by decide +kernel

theorem join_examplesDir (hc : '/' ∉ c.toList) : Path.join examplesDir c = root ++ "/" ++ c := by
  have hdir : examplesDir = "test/../" ++ "examples" := by decide +kernel
  rw [hdir, Path.join_append (by decide) (by decide) hc]
  rfl

theorem examplePath_eq {name : String} (hc : '/' ∉ c.toList) (h0 : c ≠ "")
    (hf : '/' ∉ (name ++ ".qasm").toList) :
    examplePath c name = (Example.mk c (name ++ ".qasm")).path := by
  have hdir : Path.join home "../examples" = "test/../" ++ "examples" := by decide +kernel
  rw [examplePath, hdir, Path.join_append (by decide) (by decide) hc,
    Path.join_append hc (by simpa using h0) hf]
  rfl

theorem parts_below (rest : String) :
    Path.parts (root ++ "/" ++ rest) = "test" :: ".." :: "examples" :: Path.parts rest := by
  have hroot : Path.parts root = ["test", "..", "examples"] := by decide +kernel
  rw [Path.parts_slash, hroot]
  rfl

theorem checkPath_below {rest : String} (hnull : Char.ofNat 0 ∉ rest.toList)
    (hsize : rest.utf8ByteSize ≤ 2 * Tree.nameLimit + 1) :
    Tree.checkPath (root ++ "/" ++ rest) = .ok () := by
  rw [Tree.checkPath_eq_ok_iff]
  refine ⟨?_, ?_, ?_⟩
  · rw [Path.toList_slash, List.mem_append, List.mem_cons, not_or, not_or]
    exact ⟨by decide, by decide, hnull⟩
  · intro h
    have hnil := congrArg String.toList h
    rw [Path.toList_slash] at hnil
    exact List.append_ne_nil_of_right_ne_nil _ (List.cons_ne_nil _ _) hnil
  · have hdir : root.utf8ByteSize = 16 := by decide +kernel
    have hslash : "/".utf8ByteSize = 1 := by decide +kernel
    have hname : Tree.nameLimit = 255 := rfl
    have hpath : Tree.pathLimit = 4095 := rfl
    rw [String.utf8ByteSize_append, String.utf8ByteSize_append]
    omega

namespace Arranged

theorem exists_root (h : Arranged σ cats) : ∃ entries, σ.tree = .dir entries ∧
    (entries.lookup home).isSome = true ∧ (entries.lookup categoriesDir).isSome = true := by
  obtain ⟨hs, hhome⟩ := h.suite
  have hdir := h.dir
  cases ht : σ.tree with
  | file content =>
    rw [ht] at hdir
    cases hdir
  | dir entries =>
    rw [ht] at hhome hdir
    have hsome {name : String} {u : Tree} (hat : (Tree.dir entries).at? [name] = some u) :
        (entries.lookup name).isSome = true := by
      cases hl : entries.lookup name with
      | none => simp [Tree.at?, Tree.entries, hl] at hat
      | some v => rfl
    exact ⟨entries, rfl, hsome hhome, hsome hdir⟩

theorem walk_home (h : Arranged σ cats) (rest : List String) :
    σ.tree.walk [] ("test" :: ".." :: "examples" :: rest) = σ.tree.walk [categoriesDir] rest := by
  obtain ⟨hs, hhome⟩ := h.suite
  obtain ⟨entries, ht, hl, hl'⟩ := h.exists_root
  have hroot : σ.tree.at? [] = some (.dir entries) := by rw [ht]; rfl
  rw [show "test" = home from rfl, Tree.walk_name hroot isName_home hl, List.nil_append,
    Tree.walk_above hhome, show "examples" = categoriesDir from rfl]
  exact Tree.walk_name hroot isName_categoriesDir hl' rest

theorem categories_eq (h : Arranged σ cats) :
    categories σ.tree = .ok ((cats.filter (·.2.isDir)).map (·.1)) := by
  obtain ⟨entries, ht, _, hl⟩ := h.exists_root
  obtain ⟨u, hu⟩ := Option.isSome_iff_exists.1 hl
  have hdir : u = .dir cats := by
    have hroot : σ.tree.at? [] = some (.dir entries) := by rw [ht]; rfl
    have hat : σ.tree.at? [categoriesDir] = some u := Tree.at?_entry hroot hu
    exact Option.some.inj (hat.symm.trans h.dir)
  rw [categories, ht, Tree.lookup_name isName_categoriesDir hu, hdir]
  rfl

/-- the category is one of the directories among the examples -/
theorem exists_dir_of_mem (h : Arranged σ cats)
    (hc : c ∈ σ.order ((cats.filter (·.2.isDir)).map (·.1))) : ∃ es, (c, Tree.dir es) ∈ cats := by
  rw [(h.order _).mem_iff] at hc
  obtain ⟨⟨c', t⟩, he, rfl⟩ := List.mem_map.1 hc
  obtain ⟨hmem, hdir⟩ := List.mem_filter.1 he
  cases t with
  | file content => cases hdir
  | dir es => exact ⟨es, hmem⟩

variable (h : Arranged σ cats) (hm : (c, Tree.dir es) ∈ cats)
include h hm

theorem at_category : σ.tree.at? [categoriesDir, c] = some (.dir es) :=
  Tree.at?_entry h.dir (h.named.lookup hm)

theorem walk_category (rest : List String) :
    σ.tree.walk [categoriesDir] (c :: rest) = σ.tree.walk [categoriesDir, c] rest :=
  Tree.walk_name h.dir (h.named.names _ hm) (by rw [h.named.lookup hm]; rfl) rest

theorem lookup_category : σ.tree.lookup (Path.join examplesDir c) = .ok (.dir es) := by
  have hname : Tree.IsName c := h.named.names _ hm
  have hsize := hname.size
  rw [join_examplesDir hname.slash, Tree.lookup_eq_ok_iff]
  refine ⟨checkPath_below hname.null (by omega), [categoriesDir, c], ?_, h.at_category hm⟩
  rw [parts_below, Path.parts_of_notMem hname.slash, h.walk_home, h.walk_category hm]
  rfl

theorem checkPath_example (hf : Tree.IsName f) :
    Tree.checkPath (Example.mk c f).path = .ok () := by
  have hc : Tree.IsName c := h.named.names _ hm
  have hcsize := hc.size
  have hfsize := hf.size
  have hslash : "/".utf8ByteSize = 1 := by decide +kernel
  rw [Example.path_eq]
  apply checkPath_below
  · rw [Path.toList_slash, List.mem_append, List.mem_cons, not_or, not_or]
    exact ⟨hc.null, by decide, hf.null⟩
  · rw [String.utf8ByteSize_append, String.utf8ByteSize_append]
    dsimp only
    omega

/-- in a category a path leads to the entry of its name -/
theorem lookup_path (hf : Tree.IsName f) :
    σ.tree.lookup (Example.mk c f).path =
      match es.lookup f with
      | some u => .ok u
      | none => .error .missing := by
  have hc : Tree.IsName c := h.named.names _ hm
  have hwalk : σ.tree.walk [] (Path.parts (Example.mk c f).path)
      = σ.tree.walk [categoriesDir, c] [f] := by
    rw [Example.path_eq, parts_below, Path.parts_slash, Path.parts_of_notMem hc.slash,
      Path.parts_of_notMem hf.slash, h.walk_home, List.singleton_append, h.walk_category hm]
  cases hl : es.lookup f with
  | some u =>
    rw [Tree.lookup_eq_ok_iff]
    refine ⟨h.checkPath_example hm hf, [categoriesDir, c, f], ?_,
      Tree.at?_entry (h.at_category hm) hl⟩
    rw [hwalk, Tree.walk_name (h.at_category hm) hf (by rw [hl]; rfl)]
    rfl
  | none =>
    have hstop : σ.tree.walk [categoriesDir, c] [f] = .error .missing := by
      have hsize := hf.size
      rw [Tree.walk, h.at_category hm]
      dsimp only
      rw [if_neg (not_or.2 ⟨hf.ne_empty, hf.ne_here⟩), if_neg hf.ne_above, if_neg (by omega), hl,
        if_neg (by decide)]
    rw [Tree.lookup, Tree.locate, h.checkPath_example hm hf]
    show (σ.tree.walk [] (Path.parts (Example.mk c f).path) >>= _) = _
    rw [hwalk, hstop]
    rfl

variable {s : String} (hf : (f, Tree.file (.text s)) ∈ es)
include hf

theorem at_file : σ.tree.at? (Example.mk c f).place = some (.file (.text s)) :=
  Tree.at?_entry (h.at_category hm) ((h.files c es hm).lookup hf)

theorem read_path : σ.tree.read (Example.mk c f).path = .ok (.text s) := by
  have hfile : Tree.IsName f := (h.files c es hm).names _ hf
  rw [Tree.read, h.lookup_path hm hfile, (h.files c es hm).lookup hf]
  rfl

end Arranged

end

end CircuitBench.Conformance
