import CircuitBench.Session
import CircuitBench.Tree.Expand

/-!
# Summary of a benchmark directory

The circuit files of a directory are counted by the numbers in their names: the number of qubits
after the first `_n`, and the depth after `_d` if there is one.

* `Entry.ofName`    the numbers of a file name;
* `tally`           the rows for a list of names, in the order of first occurrence;
* `sortRows`        the rows by qubits, and by depth where the first row has one;
* `summarize`       the printed summary of a directory.

A file without a depth is counted in the first row of its number of qubits, whether that row has a
depth or not; a file with a depth is looked for among rows that must all have one.
-/

namespace CircuitBench.Summary

structure Entry where
  qubits : Nat
  depth : Option Nat
  deriving DecidableEq, Repr

structure Row where
  qubits : Nat
  depth : Option Nat
  count : Nat
  deriving DecidableEq, Repr

/-- the digits after the first `_n` -/
def qubitDigits? : List Char → Option (List Char)
  | '_' :: 'n' :: cs => some (cs.takeWhile Text.isAsciiDigit)
  | _ :: cs => qubitDigits? cs
  | [] => none

/-- the digits after `_d`, where digits and an `n` stand before it -/
def depthDigits? : List Char → Option (List Char)
  | [] => none
  | c :: cs =>
    match c, cs.dropWhile Text.isAsciiDigit with
    | 'n', '_' :: 'd' :: rest => some (rest.takeWhile Text.isAsciiDigit)
    | _, _ => depthDigits? cs

/-- the number that digits write; there must be one -/
def numberOf (digits : List Char) : Except Fault Nat :=
  if digits.isEmpty then .error (.whole (.written (.malformed "")))
  else .ok (Decimal.digitsValue digits)

def Entry.ofName (directory : String) (name : List Char) : Except Fault Entry :=
  match qubitDigits? name with
  | none => .error (.unnumberedFile directory)
  | some digits => do
    let qubits ← numberOf digits
    match depthDigits? name with
    | none => return ⟨qubits, none⟩
    | some digits => return ⟨qubits, some (← numberOf digits)⟩

/-- one more in the first row with the property -/
def bump (p : Row → Bool) : List Row → List Row
  | [] => []
  | r :: rows => if p r then { r with count := r.count + 1 } :: rows else r :: bump p rows

def addEntry (rows : List Row) (e : Entry) : Except Fault (List Row) :=
  let same := rows.filter (·.qubits = e.qubits)
  if same.isEmpty then .ok (rows ++ [⟨e.qubits, e.depth, 1⟩])
  else
    match e.depth with
    | none => .ok (bump (·.qubits = e.qubits) rows)
    | some d =>
      if same.any (·.depth.isNone) then .error (.noField "depth")
      else if same.any (·.depth = some d) then
        .ok (bump (fun r => r.qubits = e.qubits ∧ r.depth = some d) rows)
      else .ok (rows ++ [⟨e.qubits, some d, 1⟩])

/-- count the names of a directory, one after the other -/
def tallyFrom (directory : String) : List Row → List (List Char) → Except Fault (List Row)
  | rows, [] => .ok rows
  | rows, name :: names => do
    let e ← Entry.ofName directory name
    tallyFrom directory (← addEntry rows e) names

def tally (directory : String) (names : List (List Char)) : Except Fault (List Row) :=
  tallyFrom directory [] names

/-- fewer qubits, or as many and no greater depth -/
def Row.le (a b : Row) : Bool :=
  a.qubits < b.qubits || (a.qubits == b.qubits && a.depth.getD 0 ≤ b.depth.getD 0)

/-- the rows in order: if the first one has a depth, all must have one -/
def sortRows : List Row → Except Fault (List Row)
  | [] => .error .noItem
  | r :: rows =>
    if r.depth.isSome then
      if rows.any (·.depth.isNone) then .error (.noField "depth")
      else .ok ((r :: rows).mergeSort Row.le)
    else .ok ((r :: rows).mergeSort fun a b => a.qubits ≤ b.qubits)

def Row.text (r : Row) : String :=
  "qubit : " ++ toString r.qubits ++
    (match r.depth with
      | some d => " \t  depth : " ++ toString d
      | none => "") ++
    " \t  file : " ++ toString r.count

def rows (directory : String) (names : List (List Char)) : Except Fault (List Row) := do
  sortRows (← tally directory names)

def lines (directory : String) (rows : List Row) : List String :=
  ("Application : " ++ directory) :: rows.map Row.text

def summarize (directory : String) : Job Unit := do
  if !(← Job.pathExists directory) then throw (.noDirectory directory)
  let files ← Job.listed ((← get).tree.expand (directory ++ "/*.qasm"))
  let sorted ← Job.lift id (rows directory (files.map fun f => Path.baseNameChars f.toList))
  Job.printText (String.join ((lines directory sorted).map (· ++ "\n")))

theorem tallyFrom_nil (directory : String) (rows : List Row) :
    tallyFrom directory rows [] = .ok rows := rfl

end CircuitBench.Summary
