import CircuitBench.Tree.Basic
import CircuitBench.Tree.NamePattern

/-!
# Paths that fit a pattern

Every part of a path pattern may be a pattern for names.  A part that is none must exist; names
that start with a dot fit only patterns that start with one.  `Tree.expand` gives the paths in the
order in which the directories hold their entries.
-/

namespace CircuitBench.Tree

/-- the entries of the directory at a path, the empty path being the tree itself -/
def entriesAt (t : Tree) (dir : String) : List (String × Tree) :=
  match t.lookup (if dir.isEmpty then "." else dir) with
  | .ok u => u.entries
  | .error _ => []

def isHidden (name : String) : Bool := name.startsWith "."

/-- whether a name fits the last part of a pattern -/
def nameFits (pattern name : String) : Bool :=
  (isHidden pattern || !isHidden name) &&
    NamePattern.fitsAll (NamePattern.ofChars pattern.toList) name.toList

/-- the names in a directory that fit the last part of a pattern -/
def namesFitting (t : Tree) (dirsOnly : Bool) (dir pattern : String) : List String :=
  if NamePattern.isPattern pattern.toList then
    ((t.entriesAt dir).filter fun e => (!dirsOnly || e.2.isDir) && nameFits pattern e.1).map (·.1)
  else if pattern.isEmpty then
    if t.pathIsDir dir then [""] else []
  else
    if t.pathExists (Path.join dir pattern) then [pattern] else []

/-- the paths that fit a pattern, all of them or the directories among them; every level of
directories takes one unit of `fuel` -/
def expandFrom (t : Tree) : (fuel : Nat) → (dirsOnly : Bool) → String → List String
  | 0, _, _ => []
  | fuel + 1, dirsOnly, pattern =>
    let dir := Path.parent pattern
    let name := Path.baseName pattern
    if dir.isEmpty then t.namesFitting dirsOnly dir name
    else
      let dirs :=
        if dir ≠ pattern ∧ NamePattern.isPattern dir.toList then t.expandFrom fuel true dir
        else [dir]
      dirs.flatMap fun d => (t.namesFitting dirsOnly d name).map (Path.join d)

def expand (t : Tree) (pattern : String) : List String :=
  t.expandFrom (pattern.length + 1) false pattern

end CircuitBench.Tree
