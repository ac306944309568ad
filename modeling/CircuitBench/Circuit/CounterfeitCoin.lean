import CircuitBench.Circuit.Basic

/-!
# The counterfeit-coin circuit

One of `n` coins is false; a balance tells whether the coins on its pans weigh the same.  The first
`n` qubits are the coins, the last one takes the answer of the balance.  A query with an odd number
of coins is undone and shows as a one in the last classical bit.
-/

namespace CircuitBench.CounterfeitCoin

open Query

variable {θ : Type}

def whenEven (g : Gate θ Bit) : Instruction θ := .gate g (some ⟨"cr", 0⟩)

/-- a gate for an odd query: only the last classical bit is set -/
def whenOdd (n : Int) (g : Gate θ Bit) : Instruction θ := .gate g (some ⟨"cr", 2 ^ n.toNat⟩)

/-- a query with every subset of the coins, its parity taken into the last qubit and measured -/
def query (n : Int) : List (Instruction θ) :=
  ((indices n).map fun i => gate (.h (qubit i))) ++
    ((indices n).map fun i => gate (.cx (qubit i) (qubit n))) ++
    [.measure (qubit n) (result n)]

/-- the last qubit made ready for the balance, or the odd query undone -/
def prepare (n : Int) : List (Instruction θ) :=
  [whenEven (.x (qubit n)), whenEven (.h (qubit n))] ++
    (indices n).map fun i => whenOdd n (.h (qubit i))

/-- the balance: the false coin decides -/
def balance (n coin : Int) : List (Instruction θ) :=
  [.barrier none, whenEven (.cx (qubit coin) (qubit n)), .barrier none]

def readOut (n : Int) : List (Instruction θ) :=
  ((indices n).map fun i => whenEven (.h (qubit i))) ++
    (indices n).map fun i => .measure (qubit i) (result i)

def body (n coin : Int) : List (Instruction θ) :=
  query n ++ prepare n ++ balance n coin ++ readOut n

def name : String := "CounterfeitCoinProblem"

/-- the circuit for `n` coins of which the one at index `coin` is false -/
def circuit (n coin : Int) : Circuit θ where
  quantum := [⟨"qr", n + 1⟩]
  classical := [⟨"cr", n + 1⟩]
  body := body n coin

end CircuitBench.CounterfeitCoin
