import CircuitBench.Text.Blank
import CircuitBench.Text.Split
import CircuitBench.Tree.Path

/-!
# Headers of example files

An example file may say its name and its section in comment lines.  A line gives the part between
its first and its second colon, without the blanks around it.  The search ends at the first
section.
-/

namespace CircuitBench.Conformance

/-- what a line says: the part after its first colon, up to the next one -/
def value? (line : List Char) : Option (List Char) :=
  match Text.splitOn ':' line with
  | _ :: field :: _ => some (Text.trim Text.isBlank field)
  | _ => none

structure Header where
  name : Option (List Char)
  part : Option (List Char)
  deriving DecidableEq, Repr

def mentions (part : String) (line : List Char) : Bool := Text.occursIn part.toList line

/-- the header in a list of lines; the last name before the first section counts -/
def headerFrom (name : Option (List Char)) : List (List Char) → Header
  | [] => ⟨name, none⟩
  | line :: lines =>
    if mentions "//" line then
      let name := if mentions "name:" line then value? line else name
      if mentions "section:" line then ⟨name, value? line⟩
      else headerFrom name lines
    else headerFrom name lines

def header (text : List Char) : Header := headerFrom none (Text.splitOn '\n' text)

/-- what a header says, if it says anything -/
def said : Option (List Char) → Option String
  | some (c :: cs) => some (String.ofList (c :: cs))
  | _ => none

/-- how a file is named in the report: by its header, or by its file name when that has no name -/
def label (path : String) (h : Header) : String :=
  let title :=
    match said h.name with
    | none => Path.stem (Path.baseName path)
    | some name =>
      match said h.part with
      | none => name
      | some part => name ++ ", section: " ++ part
  " - " ++ title ++ " (" ++ Path.baseName (Path.parent path) ++ ")"

end CircuitBench.Conformance
