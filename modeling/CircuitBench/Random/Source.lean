import CircuitBench.Random.Sha512
import CircuitBench.Random.Twister

/-!
# Random numbers

A source of random numbers is a twister seeded from a whole number or a text.

* `real`      53 random bits as a real number from zero up to below one;
* `bits k`    a whole number of `k` random bits;
* `below n`   a whole number below `n`: as many bits as `n` has are drawn until they give one.
-/

namespace CircuitBench.Random

abbrev Source := Twister.State

inductive Seed where
  | whole (n : Int)
  | text (s : String)
  deriving DecidableEq, Repr

def words : (fuel : Nat) → Nat → List UInt32
  | 0, _ => []
  | fuel + 1, n =>
    if n = 0 then [] else UInt32.ofNat (n % 2 ^ (32 : Nat)) :: words fuel (n / 2 ^ (32 : Nat))

def key (n : Nat) : List UInt32 :=
  if n = 0 then [0] else words (n.log2 + 1) n

/-- bytes as a number, the first byte leading -/
def ofBytes (bytes : List UInt8) : Nat := bytes.foldl (fun n b => 256 * n + b.toNat) 0

/-- a text stands for the number of its bytes followed by their hash -/
def Seed.number : Seed → Nat
  | .whole n => n.natAbs
  | .text s =>
    let bytes := s.toUTF8.toList
    ofBytes (bytes ++ Sha512.digest bytes)

def Source.seeded (seed : Seed) : Source := Twister.seeded (key seed.number)

/-- a real number from zero up to below one -/
def real (s : Source) : Float × Source :=
  let (a, s) := Twister.next s
  let (b, s) := Twister.next s
  let n := (a >>> 5).toNat * 2 ^ (26 : Nat) + (b >>> 6).toNat
  (Float.ofNat n / Float.ofNat (2 ^ (53 : Nat)), s)

/-- a number of `k` random bits: words of 32 bits from the lowest on, and of the last word its
leading bits -/
def bits : (fuel : Nat) → (k : Nat) → Source → Nat × Source
  | 0, _, s => (0, s)
  | fuel + 1, k, s =>
    if k = 0 then (0, s)
    else if k ≤ 32 then
      let (w, s) := Twister.next s
      (w.toNat / 2 ^ (32 - k), s)
    else
      let (w, s) := Twister.next s
      let (high, s) := bits fuel (k - 32) s
      (w.toNat + 2 ^ (32 : Nat) * high, s)

def bitLength (n : Nat) : Nat := if n = 0 then 0 else n.log2 + 1

/-- draws that are tried before `below` gives up; each one succeeds at least every other time -/
def drawLimit : Nat := 10000

/-- draw until a number below `n` comes -/
def belowFrom (n : Nat) : (fuel : Nat) → Source → Nat × Source
  | 0, s => (0, s)
  | fuel + 1, s =>
    let k := bitLength n
    let (r, s) := bits (k / 32 + 1) k s
    if r < n then (r, s) else belowFrom n fuel s

/-- a whole number below `n`, for positive `n` -/
def below (n : Nat) (s : Source) : Nat × Source := belowFrom n drawLimit s

end CircuitBench.Random
