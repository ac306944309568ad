import CircuitBench.Number
import CircuitBench.Text.Wide

/-!
# JSON values

The values of a reference file and of a setting whose kind is not fixed.  Numbers keep their kind
(whole or real), texts may hold lone halves; the fields of an object keep their order and have
distinct names.

* `Json.put`      a field put into an object: a known name keeps its place;
* `Json.equal`    equality of values: numbers and truth values by value, lists by item, objects
                  by field whatever the order;
* `Json.literal`  the text of a value inside another one, `Json.display` on its own;
* `Json.truthy`   whether a value counts as set;
* `Json.toWhole`  the whole number that a value stands for.
-/

namespace CircuitBench

open Decimal Text

inductive Json where
  | null
  | bool (b : Bool)
  | num (n : Number)
  | str (s : Wide)
  | arr (items : List Json)
  | obj (fields : List (Wide × Json))

namespace Json

/-- the fields with `name` set to `v`: in its place, or at the end when it is new -/
def put (name : Wide) (v : Json) : List (Wide × Json) → List (Wide × Json)
  | [] => [(name, v)]
  | (k, w) :: fields => if k = name then (k, v) :: fields else (k, w) :: put name v fields

/-- the fields with all the given ones put in, one after the other -/
def putAll (fields : List (Wide × Json)) : List (Wide × Json) :=
  fields.foldl (fun acc f => put f.1 f.2 acc) []

def text (s : String) : Json := .str (.ofString s)

def field? (name : String) : Json → Option Json
  | .obj fields => fields.lookup (.ofString name)
  | _ => none

/-! ## equality -/

/-- a truth value counts as the number zero or one -/
def number? : Json → Option Number
  | .num n => some n
  | .bool b => some (.whole (if b then 1 else 0))
  | _ => none

mutual

def equal : Json → Json → Bool
  | .null, .null => true
  | .str s, .str t => s == t
  | .arr xs, .arr ys => equalItems xs ys
  | .obj fs, .obj gs => fs.length == gs.length && equalFields fs gs
  | .bool a, w =>
    match w.number? with
    | some n => (Number.whole (if a then 1 else 0)).eq n
    | none => false
  | .num m, w =>
    match w.number? with
    | some n => m.eq n
    | none => false
  | _, _ => false

def equalItems : List Json → List Json → Bool
  | [], [] => true
  | x :: xs, y :: ys => equal x y && equalItems xs ys
  | _, _ => false

/-- every field of the first list has an equal one of its name in the second -/
def equalFields : List (Wide × Json) → List (Wide × Json) → Bool
  | [], _ => true
  | (k, v) :: fs, gs =>
    (match gs.lookup k with
      | some w => equal v w
      | none => false) && equalFields fs gs

end

/-! ## text -/

def boolText (b : Bool) : String := if b then "True" else "False"

mutual

/-- the text of a value that stands inside another one -/
def literal : Json → String
  | .null => "None"
  | .bool b => boolText b
  | .num n => n.text
  | .str s => s.quote
  | .arr xs => "[" ++ literalItems xs ++ "]"
  | .obj fs => "\x7b" ++ literalFields fs ++ "\x7d"

def literalItems : List Json → String
  | [] => ""
  | [x] => x.literal
  | x :: xs => x.literal ++ ", " ++ literalItems xs

def literalFields : List (Wide × Json) → String
  | [] => ""
  | [(k, v)] => k.quote ++ ": " ++ v.literal
  | (k, v) :: fs => k.quote ++ ": " ++ v.literal ++ ", " ++ literalFields fs

end

/-- the text of a value on its own: a text stands for itself -/
def display : Json → Wide
  | .str s => s
  | v => .ofString v.literal

/-- the text of a value on its own, without lone halves -/
def displayText (v : Json) : String := v.display.toString

/-! ## readings -/

/-- whether a value counts as set: not null, false, zero or empty -/
def truthy : Json → Bool
  | .null => false
  | .bool b => b
  | .num n => !n.eq (.whole 0)
  | .str s => !s.points.isEmpty
  | .arr xs => !xs.isEmpty
  | .obj fs => !fs.isEmpty

def kind : Json → String
  | .null => "NoneType"
  | .bool _ => "bool"
  | .num n => n.kind
  | .str _ => "str"
  | .arr _ => "list"
  | .obj _ => "dict"

inductive WholeFault where
  | written (fault : Decimal.WholeFault)
  | number (fault : Number.Fault)
  | kind (name : String)
  deriving DecidableEq, Repr

def WholeFault.message : WholeFault → String
  | .written fault => fault.message
  | .number fault => fault.message
  | .kind name =>
    "int() argument must be a string, a bytes-like object or a real number, not '" ++ name ++ "'"

/-- the whole number that a value stands for: a number towards zero, a text as it is written -/
def toWhole : Json → Except WholeFault Int
  | .num n => n.toWhole.mapError .number
  | .bool b => .ok (if b then 1 else 0)
  | .str s => (readWhole s.toString).mapError .written
  | v => .error (.kind v.kind)

end Json

end CircuitBench
