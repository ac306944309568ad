import CircuitBench.Session

/-!
# Comparing counts with a reference

The reference of a circuit file is a JSON value in a file of its own: an object with a count for
every outcome.  Every counted outcome must be in it with an equal count.
-/

namespace CircuitBench.Bench

/-- whether an outcome can be found in a reference -/
def holdsOutcome (outcome : String) : Json → Except Fault Bool
  | .obj fields => .ok (fields.lookup (.ofString outcome)).isSome
  | .arr items => .ok (items.any fun v => (Json.text outcome).equal v)
  | .str s => .ok (Text.occursIn (Text.Wide.ofString outcome).points s.points)
  | v => .error (.noLookup v.kind)

def referenceCount (outcome : String) : Json → Except Fault Json
  | .obj fields =>
    match fields.lookup (.ofString outcome) with
    | some v => .ok v
    | none => .error (.noField outcome)
  | .arr _ => .error .listLookup
  | .str _ => .error .textLookup
  | v => .error (.noLookup v.kind)

/-- compare counts with the reference that was read from `path` -/
def compareCounts (path : String) (reference : Json) : List (String × Json) → Except Fault Unit
  | [] => .ok ()
  | (outcome, count) :: counts => do
    if !(← holdsOutcome outcome reference) then throw (.outcomeMissing outcome path)
    let expected ← referenceCount outcome reference
    if !expected.equal count then throw (.countDiffers count expected)
    compareCounts path reference counts

def referenceDir (name : String) : String := name ++ "/ref"

def referencePath (name file : String) : String :=
  referenceDir name ++ "/" ++ Path.baseName file ++ ".ref"

/-- compare the counts of an execution of a circuit file with its reference -/
def verify (counts : List (String × Json)) (name file : String) : Job Unit := do
  if !(← Job.pathExists (referenceDir name)) then throw (.noReferences name)
  let path := referencePath name file
  if !(← Job.pathExists path) then throw (.noReferenceFile path)
  let text ← Job.readText path Text.Utf8.decode
  let reference ← Job.lift .json (Json.parse (String.ofList text))
  Job.lift id (compareCounts path reference counts)

end CircuitBench.Bench
