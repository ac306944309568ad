import CircuitBench.Text.Utf8
import CircuitBench.Tree.Path

/-!
# File trees

A tree is a file or a directory of named trees.  Places in a tree are lists of names; paths are
resolved to places by `locate`, where `.` stays and `..` goes up.  The tree is all there is: the
directory that a path starts from is the root, so that absolute paths start there too and nothing is
above it.

* `Tree.at?`          the tree at a place;
* `Tree.put`          a tree put at a place, with the directories above it;
* `Tree.appendText`   a text continued;
* `Tree.files`        all files with their places;
* `Tree.locate`       the place that a path leads to, or why it leads nowhere;
* `Tree.read`         the content of the file at a path;
* `Tree.writable`     the place where writing to a path puts the file.
-/

namespace CircuitBench

/-- the content of a file: text, or bytes that are no text -/
inductive Content where
  | text (s : String)
  | raw (bytes : List UInt8)
  deriving DecidableEq

/-- bytes that can be read as text are text -/
def Content.ofBytes (bytes : List UInt8) : Content :=
  match Text.Utf8.decode bytes with
  | .ok cs => .text (String.ofList cs)
  | .error _ => .raw bytes

inductive Tree where
  | file (content : Content)
  | dir (entries : List (String × Tree))

/-- a place in a tree: the names on the way to it -/
abbrev Place := List String

namespace Tree

/-- the entries with `name` set to `t`, in its place or at the end -/
def putEntry (name : String) (t : Tree) : List (String × Tree) → List (String × Tree)
  | [] => [(name, t)]
  | (k, u) :: entries => if k = name then (k, t) :: entries else (k, u) :: putEntry name t entries

/-- the entries of a directory; a file has none -/
def entries : Tree → List (String × Tree)
  | .file _ => []
  | .dir es => es

def isDir : Tree → Bool
  | .file _ => false
  | .dir _ => true

def names (t : Tree) : List String := t.entries.map (·.1)

/-- the tree at a place -/
def at? : Place → Tree → Option Tree
  | [], t => some t
  | name :: place, t =>
    match t.entries.lookup name with
    | some u => at? place u
    | none => none

/-- `new` put at a place; what is missing on the way becomes a directory -/
def put : Tree → Place → Tree → Tree
  | _, [], new => new
  | t, name :: place, new =>
    .dir (putEntry name (put ((t.entries.lookup name).getD (.dir [])) place new) t.entries)

/-- `text` put at the end of the file at a place, which is made if nothing is there -/
def appendText (t : Tree) (place : Place) (text : String) : Tree :=
  match t.at? place with
  | none => t.put place (.file (.text text))
  | some (.file (.text before)) => t.put place (.file (.text (before ++ text)))
  | some (.file (.raw bytes)) =>
    t.put place (.file (.ofBytes (bytes ++ text.toUTF8.toList)))
  | some (.dir _) => t

/-- the tree without what is at a place -/
def remove : Tree → Place → Tree
  | t, [] => t
  | t, [name] => .dir (t.entries.filter fun e => e.1 ≠ name)
  | t, name :: place =>
    match t.entries.lookup name with
    | some u => .dir (putEntry name (remove u place) t.entries)
    | none => t

mutual

/-- all files below, with their places -/
def files : Tree → List (Place × Content)
  | .file content => [([], content)]
  | .dir es => filesOf es

def filesOf : List (String × Tree) → List (Place × Content)
  | [] => []
  | (name, t) :: es => (files t).map (fun f => (name :: f.1, f.2)) ++ filesOf es

end

/-! ## paths -/

inductive Fault where
  | missing
  | isDirectory
  | notDirectory
  | nameTooLong
  | nullCharacter
  deriving DecidableEq, Repr

def Fault.describe : Fault → String
  | .missing => "[Errno 2] No such file or directory"
  | .isDirectory => "[Errno 21] Is a directory"
  | .notDirectory => "[Errno 20] Not a directory"
  | .nameTooLong => "[Errno 36] File name too long"
  | .nullCharacter => "embedded null byte"

def Fault.message (path : String) : Fault → String
  | .nullCharacter => Fault.describe .nullCharacter
  | fault => fault.describe ++ ": " ++ Text.quote path

def nameLimit : Nat := 255

def pathLimit : Nat := 4095

/-- the place that names lead to from the place `here` -/
def walk (t : Tree) : (here : Place) → List String → Except Fault Place
  | here, [] => .ok here
  | here, name :: rest =>
    match t.at? here with
    | none => .error .missing
    | some (.file _) => .error .notDirectory
    | some (.dir es) =>
      if name = "" ∨ name = "." then walk t here rest
      else if name = ".." then walk t here.dropLast rest
      else if nameLimit < name.utf8ByteSize then .error .nameTooLong
      else if (es.lookup name).isSome then walk t (here ++ [name]) rest
      else .error .missing

/-- what must hold of a path before it is followed -/
def checkPath (path : String) : Except Fault Unit :=
  if path.toList.contains (Char.ofNat 0) then .error .nullCharacter
  else if path.isEmpty then .error .missing
  else if pathLimit < path.utf8ByteSize then .error .nameTooLong
  else .ok ()

def locate (t : Tree) (path : String) : Except Fault Place := do
  checkPath path
  t.walk [] (Path.parts path)

def lookup (t : Tree) (path : String) : Except Fault Tree := do
  let place ← t.locate path
  match t.at? place with
  | some u => return u
  | none => throw .missing

def pathExists (t : Tree) (path : String) : Bool := (t.lookup path).toBool

def pathIsDir (t : Tree) (path : String) : Bool :=
  match t.lookup path with
  | .ok u => u.isDir
  | .error _ => false

def read (t : Tree) (path : String) : Except Fault Content := do
  match ← t.lookup path with
  | .file content => return content
  | .dir _ => throw .isDirectory

/-- the place of the file that writing to a path makes or replaces: its directory must exist -/
def writable (t : Tree) (path : String) : Except Fault Place := do
  checkPath path
  let parts := Path.parts path
  let name := parts.getLastD ""
  let place ← t.walk [] parts.dropLast
  let u := (t.at? place).getD (.dir [])
  if !u.isDir then throw .notDirectory
  if name = "" ∨ name = "." ∨ name = ".." then throw .isDirectory
  if nameLimit < name.utf8ByteSize then throw .nameTooLong
  match u.entries.lookup name with
  | some (.dir _) => throw .isDirectory
  | _ => return place ++ [name]

/-! ## setting up -/

/-- the place that a path names, whatever the tree holds -/
def placeOf (path : String) : Place :=
  (Path.parts path).foldl
    (fun here name =>
      if name = "" ∨ name = "." then here
      else if name = ".." then here.dropLast
      else here ++ [name])
    []

/-- the tree with a file, and the directories above it -/
def withFile (t : Tree) (path : String) (content : Content) : Tree :=
  t.put (placeOf path) (.file content)

/-- the tree with a directory, if nothing is there yet -/
def withDir (t : Tree) (path : String) : Tree :=
  if (t.at? (placeOf path)).isSome then t else t.put (placeOf path) (.dir [])

/-- the tree without what a path names -/
def without (t : Tree) (path : String) : Tree := t.remove (placeOf path)

/-- the files that are new or have another content than before, by path -/
def changes (before after : Tree) : List (String × Content) :=
  let old := before.files
  let changed := after.files.filter fun f => old.lookup f.1 ≠ some f.2
  (changed.map fun f => (Text.joinWith "/" f.1, f.2)).mergeSort fun a b => decide (a.1 ≤ b.1)

@[simp] theorem at?_nil (t : Tree) : t.at? [] = some t := rfl

theorem lookup_putEntry (name : String) (t : Tree) (es : List (String × Tree)) :
    (putEntry name t es).lookup name = some t := by
  induction es with
  | nil => simp [putEntry]
  | cons e es ih =>
    obtain ⟨k, u⟩ := e
    by_cases h : k = name
    · simp [putEntry, h]
    · have hk : (name == k) = false := by simpa using fun e => h e.symm
      simp [putEntry, h, List.lookup_cons, hk, ih]

/-- what is put at a place is there -/
theorem at?_put (place : Place) (new t : Tree) : (t.put place new).at? place = some new := by
  induction place generalizing t with
  | nil => rfl
  | cons name place ih => simp [put, at?, entries, lookup_putEntry, ih]

end Tree

end CircuitBench
