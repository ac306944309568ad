import CircuitBench.Bench.Reference
import CircuitBench.Command
import CircuitBench.Conformance.Suite

/-!
# The program

The first word of the command line names a tool, the others are its options.

* `hidden-string`, `counterfeit-coin`, `fourier`, `volume` generate circuits;
* `references` writes the reference counts for hidden strings;
* `benchmark` and `conformance` work on the files whose paths are given on the standard input, one a
  line.

No toolkit is attached: every execution counts as done and every program text is accepted.
-/

namespace CircuitBench.Main

/-- a tool: its job, and whether it works on listed files -/
structure Tool where
  job : List String → Job Unit
  reads : Bool

def tool? (name : String) : Option Tool :=
  match name with
  | "hidden-string" => some ⟨Command.hiddenString name, false⟩
  | "counterfeit-coin" => some ⟨Command.counterfeitCoin name, false⟩
  | "fourier" => some ⟨Command.fourier name, false⟩
  | "volume" => some ⟨Command.volume name, false⟩
  | "references" => some ⟨fun _ => Reference.writeAll, false⟩
  | "benchmark" => some ⟨Command.benchmark name, true⟩
  | "conformance" => some ⟨fun words => Conformance.runSuite (words.contains "-v"), true⟩
  | _ => none

def status : Fault → UInt32
  | .usage _ _ => 2
  | .exit n => UInt32.ofNat n
  | _ => 1

/-- the tree before any file is loaded: the directories of the paths among the words are taken to
exist -/
def start (words : List String) : Tree :=
  words.foldl (fun t word => t.withDir (Path.parent word)) (.dir [(Conformance.home, .dir [])])

/-- put the file at a path into the tree, or a directory if it cannot be read -/
def load (t : Tree) (path : String) : IO Tree := do
  try
    let bytes ← IO.FS.readBinFile path
    return t.withFile path (.ofBytes bytes.toList)
  catch _ => return t.withDir path

/-- the lines of a stream, without their line feeds -/
partial def readLines (stream : IO.FS.Stream) : IO (List String) := do
  let line ← stream.getLine
  if line.isEmpty then return []
  return (String.ofList (line.toList.filter (· ≠ '\n'))) :: (← readLines stream)

/-- perform a job on a tree, show what it prints and write the files that it changes -/
def perform (job : Job Unit) (tree : Tree) : IO UInt32 := do
  let (result, after) := job.perform { Session.initial with tree := tree }
  IO.print after.output
  for (path, content) in tree.changes after.tree do
    match content with
    | .text s => IO.FS.writeFile path s
    | .raw _ => pure ()
  match result with
  | .ok _ => return 0
  | .error fault =>
    IO.eprintln (fault.complaint?.getD fault.words)
    return status fault

end CircuitBench.Main

open CircuitBench in
def main (words : List String) : IO UInt32 := do
  match words with
  | [] =>
    IO.eprintln "the name of a tool is missing"
    return 2
  | name :: rest =>
    match Main.tool? name with
    | none =>
      IO.eprintln ("no such tool: " ++ name)
      return 2
    | some tool =>
      let paths ← if tool.reads then Main.readLines (← IO.getStdin) else pure []
      Main.perform (tool.job rest) (← paths.foldlM Main.load (Main.start rest))
