import CircuitBench.Options.Grammar
import CircuitBench.Random.Source

/-!
# The options of the tools

Each tool has a list of options and a record of their values, with defaults.
-/

namespace CircuitBench.Options

/-! ## hidden strings -/

structure HiddenString where
  qubits : Given Int
  prob : Given Number
  hidden : Option (Given String)
  seed : Given Random.Seed
  draw : Bool
  output : Option (Given String)

def HiddenString.specs : List Spec :=
  [⟨["-q", "--qubits"], .whole⟩, ⟨["-p", "--prob"], .real⟩, ⟨["-a", "--astring"], .text⟩,
    ⟨["-s", "--seed"], .text⟩, ⟨["-d", "--draw"], .truth⟩, ⟨["-o", "--output"], .text⟩]

/-- a seed that is given is a text; without one it is zero -/
def seedOf (a : Assignments) : Given Random.Seed :=
  match a.text? "--seed" with
  | some s => s.map .text
  | none => .value (.whole 0)

def HiddenString.of (a : Assignments) : HiddenString where
  qubits := (a.whole? "--qubits").getD (.value 16)
  prob := ((a.real? "--prob").getD (.value 1)).map .real
  hidden := a.text? "--astring"
  seed := seedOf a
  draw := a.isSet "--draw"
  output := a.text? "--output"

/-! ## counterfeit coins -/

structure CounterfeitCoin where
  coins : Given Int
  falseCoin : Option (Given Int)
  seed : Given Random.Seed
  draw : Bool
  output : Option (Given String)

def CounterfeitCoin.specs : List Spec :=
  [⟨["-c", "--coins"], .whole⟩, ⟨["-f", "--false"], .whole⟩, ⟨["-s", "--seed"], .text⟩,
    ⟨["-d", "--draw"], .truth⟩, ⟨["-o", "--output"], .text⟩]

def CounterfeitCoin.of (a : Assignments) : CounterfeitCoin where
  coins := (a.whole? "--coins").getD (.value 16)
  falseCoin := a.whole? "--false"
  seed := seedOf a
  draw := a.isSet "--draw"
  output := a.text? "--output"

/-! ## Fourier transforms -/

structure Fourier where
  name : Given String
  qubits : Given Int

def Fourier.specs : List Spec := [⟨["--name"], .text⟩, ⟨["-n", "--qubits"], .whole⟩]

def Fourier.of (a : Assignments) : Fourier where
  name := (a.text? "--name").getD (.value "qft")
  qubits := (a.whole? "--qubits").getD (.value 5)

/-! ## model circuits -/

structure Volume where
  name : Given String
  qubits : Given Int
  depth : Given Int
  count : Given Int
  run : Bool
  backend : Given String

def Volume.specs : List Spec :=
  [⟨["--name"], .text⟩, ⟨["-n", "--qubits"], .whole⟩, ⟨["-d", "--depth"], .whole⟩,
    ⟨["--num-circ"], .whole⟩, ⟨["-r", "--run"], .flag⟩, ⟨["-b", "--backend"], .text⟩]

/-- the simulator that is used when no other backend is named -/
def defaultBackend : String := "local_qasm_simulator"

def Volume.of (a : Assignments) : Volume where
  name := (a.text? "--name").getD (.value "quantum_volume")
  qubits := (a.whole? "--qubits").getD (.value 5)
  depth := (a.whole? "--depth").getD (.value 5)
  count := (a.whole? "--num-circ").getD (.value 1)
  run := a.isSet "--run"
  backend := (a.text? "--backend").getD (.value defaultBackend)

/-! ## benchmarks -/

/-- numbers are kept as they are written -/
structure Benchmark where
  name : Given String
  first : Given String
  last : Given String
  depth : Given String
  backend : Given String
  seed : Option (Given String)
  verify : Bool
  list : Bool

def Benchmark.specs : List Spec :=
  [⟨["-a", "--name"], .text⟩, ⟨["-s", "--start"], .text⟩, ⟨["-e", "--end"], .text⟩,
    ⟨["-d", "--depth"], .text⟩, ⟨["-b", "--backend"], .text⟩, ⟨["-sd", "--seed"], .text⟩,
    ⟨["-v", "--verify"], .flag⟩, ⟨["-l", "--list"], .flag⟩]

def Benchmark.of (a : Assignments) : Benchmark where
  name := (a.text? "--name").getD (.value "qft")
  first := (a.text? "--start").getD (.value "4")
  last := (a.text? "--end").getD (.value "0")
  depth := (a.text? "--depth").getD (.value "0")
  backend := (a.text? "--backend").getD (.value defaultBackend)
  seed := a.text? "--seed"
  verify := a.isSet "--verify"
  list := a.isSet "--list"

end CircuitBench.Options
