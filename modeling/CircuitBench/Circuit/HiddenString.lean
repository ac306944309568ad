import CircuitBench.Circuit.Basic

/-!
# The hidden-string circuit

The Bernstein-Vazirani circuit: an oracle knows a string of bits and answers the parity of the
bits that it shares with a query; one query finds the string.  Of `n` qubits the last one takes the
answer, the others are the query.  Bit `i` of the query stands for the `i`-th character of the
string from its end.
-/

namespace CircuitBench.HiddenString

open Query

inductive Fault where
  | tooLong
  | nonBinary (s : String)
  deriving DecidableEq, Repr

def Fault.message : Fault → String
  | .tooLong =>
    "The length of the hidden string is                          longer than the number of qubits"
  | .nonBinary s => "Found nonbinary string at " ++ s

def isBinary (c : Char) : Bool := c == '0' || c == '1'

/-- a string can be hidden if it has at most `limit` characters, each of them a bit -/
def check (s : String) (limit : Int) : Except Fault Unit :=
  if limit < s.length then .error .tooLong
  else if s.toList.all isBinary then .ok ()
  else .error (.nonBinary s)

variable {θ : Type}

/-- the operands of the oracle: the places of the ones of the string, counted from its end -/
def marked (s : String) : List Int :=
  (s.toList.reverse.zipIdx.filter fun p => p.1 = '1').map fun p => Int.ofNat p.2

/-- a Hadamard gate on every qubit of the query -/
def spread (n : Int) : List (Instruction θ) := (indices (n - 1)).map fun i => gate (.h (qubit i))

/-- the oracle: the marked qubits added into the answer -/
def oracle (n : Int) (s : String) : List (Instruction θ) :=
  (marked s).map fun i => gate (.cx (qubit i) (qubit (n - 1)))

def body (n : Int) (s : String) : List (Instruction θ) :=
  spread n ++ [gate (.x (qubit (n - 1))), gate (.h (qubit (n - 1))), .barrier none] ++
    oracle n s ++ [.barrier none] ++ spread n ++
    (indices (n - 1)).map fun i => .measure (qubit i) (result i)

def name : String := "BernsteinVazirani"

def circuit (n : Int) (s : String) : Circuit θ where
  quantum := [⟨"qr", n⟩]
  classical := [⟨"cr", n - 1⟩]
  body := body n s

theorem check_eq_ok_iff (s : String) (limit : Int) :
    check s limit = .ok () ↔ s.length ≤ limit ∧ s.toList.all isBinary = true := by
  unfold check
  split
  · simp
    omega
  · split
    · simp_all
    · simp_all

end CircuitBench.HiddenString
