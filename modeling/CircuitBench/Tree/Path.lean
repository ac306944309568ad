import CircuitBench.Text.Split

/-!
# Paths

A path is a text whose parts are divided by slashes.  Nothing is resolved here: `.`, `..` and
repeated slashes stay as written.

* `baseName`    what stands after the last slash;
* `parent`      what stands before it, without the slashes at its end;
* `join`        a path inside a directory; an absolute path replaces the directory;
* `stem`        a name without its extension.
-/

namespace CircuitBench.Path

/-- the part after the last slash, and all before it (with the slash), of a path given backwards;
both are backwards -/
def cutBack : List Char → List Char × List Char
  | [] => ([], [])
  | c :: cs =>
    if c = '/' then ([], c :: cs)
    else ((c :: (cutBack cs).1), (cutBack cs).2)

def baseNameChars (cs : List Char) : List Char := (cutBack cs.reverse).1.reverse

/-- before the last slash; the slashes at the end go, unless there is nothing else -/
def parentChars (cs : List Char) : List Char :=
  let head := (cutBack cs.reverse).2
  match head.dropWhile (· = '/') with
  | [] => head.reverse
  | rest => rest.reverse

def baseName (p : String) : String := String.ofList (baseNameChars p.toList)

def parent (p : String) : String := String.ofList (parentChars p.toList)

def isAbsolute (p : String) : Bool := p.startsWith "/"

/-- `p` as a path inside the directory `dir` -/
def join (dir p : String) : String :=
  if isAbsolute p then p
  else if dir.isEmpty || dir.endsWith "/" then dir ++ p
  else dir ++ "/" ++ p

/-- a file name without its extension: the last dot and what follows it, unless only dots stand
before that dot -/
def stemChars (cs : List Char) : List Char :=
  let back := cs.reverse
  match back.dropWhile (· ≠ '.') with
  | [] => cs
  | _ :: rest => if rest.all (· = '.') then cs else rest.reverse

def stem (name : String) : String := String.ofList (stemChars name.toList)

/-- the parts between the slashes -/
def parts (p : String) : List String := (Text.splitOn '/' p.toList).map String.ofList

end CircuitBench.Path
