import CircuitBench.Bench.Run
import CircuitBench.Bench.Summary
import CircuitBench.Generate.CounterfeitCoin
import CircuitBench.Generate.Fourier
import CircuitBench.Generate.HiddenString
import CircuitBench.Generate.Volume
import CircuitBench.Options.Tools

/-!
# Command lines

The jobs of the five command lines.  Each takes the name of the program, for its messages, and the
words after it.
-/

namespace CircuitBench.Command

def options (program : String) (specs : List Options.Spec) (words : List String) :
    Job Options.Assignments :=
  Job.lift (Options.Stop.toFault program) (Options.read specs words)

theorem options_eq_pure {specs : List Options.Spec} {words : List String}
    {a : Options.Assignments} (h : Options.read specs words = .ok a) (program : String) :
    options program specs words = pure a := by
  rw [options, h]
  rfl

def setSeed (seed : Given Random.Seed) : Job Unit := do Job.seed (← Job.given (.kind .seed) seed)

def hiddenString (program : String) (words : List String) : Job Unit := do
  let o := Options.HiddenString.of (← options program Options.HiddenString.specs words)
  setSeed o.seed
  Generate.HiddenString.generate o.qubits o.hidden o.prob o.draw o.output

/-- generate a counterfeit-coin circuit; the false coin is chosen at random if it is not given -/
def counterfeitCoin (program : String) (words : List String) : Job Unit := do
  let o := Options.CounterfeitCoin.of (← options program Options.CounterfeitCoin.specs words)
  setSeed o.seed
  let coin ← match o.falseCoin with
    | some coin => pure coin
    | none =>
      let coins ← Job.given (.kind (.arithmetic "-" Given.blankKind "int")) o.coins
      Given.value <$> Job.drawIndex coins
  Generate.CounterfeitCoin.generate o.coins coin o.draw o.output

def fourier (program : String) (words : List String) : Job Unit := do
  let o := Options.Fourier.of (← options program Options.Fourier.specs words)
  Generate.Fourier.generate o.name o.qubits

def volume (program : String) (words : List String) : Job Unit := do
  let o := Options.Volume.of (← options program Options.Volume.specs words)
  Generate.Volume.generate o.qubits o.depth o.count o.run o.backend

def benchmarkOptions (program : String) (words : List String) : Job Options.Benchmark :=
  return Options.Benchmark.of (← options program Options.Benchmark.specs words)

/-- a setting as a value: a blank one is an empty list -/
def valueOf : Given String → Json
  | .value s => .text s
  | .blank => .arr []

def settings (o : Options.Benchmark) : Bench.Settings where
  name := o.name
  backend := o.backend
  depth := valueOf o.depth
  seed := match o.seed with
    | some s => valueOf s
    | none => .null
  verify := .bool o.verify

/-- summarize a benchmark, or run it for a range of qubit numbers; an end of zero means the first
number only -/
def benchmarkWith (o : Options.Benchmark) : Job Unit := do
  if o.list then
    Summary.summarize (← Job.given (.kind (.path Given.blankKind)) o.name)
  else
    let first ← Job.lift .whole (valueOf o.first).toWhole
    let last ← Job.lift .whole (valueOf o.last).toWhole
    Bench.runRange (settings o) first (if last = 0 then first else last)

/-- summarize or run a benchmark; an interruption ends the program with a word -/
def benchmark (program : String) (words : List String) : Job Unit := do
  try
    benchmarkWith (← benchmarkOptions program words)
  catch
    | .interrupted _ =>
      Job.printLine "Benchmark suite interrupted: exit!"
      throw (.exit 1)
    | fault => throw fault

end CircuitBench.Command
