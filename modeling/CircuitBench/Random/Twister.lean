/-!
# The Mersenne twister

A generator of 32-bit words with 624 words of state.  `seeded` fills the state from a key of
words; `next` gives the next word, after the whole state has been renewed when all its words have
been used.

The state is an array of `size` words and the number of words already given out since it was last
renewed.
-/

namespace CircuitBench.Random.Twister

def size : Nat := 624

/-- the distance between a word and the one it is mixed with -/
def shift : Nat := 397

structure State where
  words : Array UInt32
  used : Nat

/-- filled from one word, each word from the one before -/
def fill (seed : UInt32) : Array UInt32 :=
  (List.range (size - 1)).foldl
    (fun ws i =>
      let last := ws.getD i 0
      ws.push ((1812433253 : UInt32) * (last ^^^ (last >>> 30)) + UInt32.ofNat (i + 1)))
    #[seed]

/-- the place after `i` in the cycle `1 … size - 1`; going round copies the last word to the
front -/
def advance (ws : Array UInt32) (i : Nat) : Array UInt32 × Nat :=
  if size ≤ i + 1 then (ws.setIfInBounds 0 (ws.getD (size - 1) 0), 1) else (ws, i + 1)

/-- one step of mixing at place `i`: the word before is spread by `factor` -/
def mixed (factor : UInt32) (ws : Array UInt32) (i : Nat) : UInt32 :=
  let last := ws.getD (i - 1) 0
  ws.getD i 0 ^^^ ((last ^^^ (last >>> 30)) * factor)

/-- the words of the key added in, cyclically -/
def addKey (key : Array UInt32) :
    (steps : Nat) → (i j : Nat) → Array UInt32 → Array UInt32 × Nat
  | 0, i, _, ws => (ws, i)
  | steps + 1, i, j, ws =>
    let ws := ws.setIfInBounds i (mixed 1664525 ws i + key.getD j 0 + UInt32.ofNat j)
    let (ws, i) := advance ws i
    addKey key steps i (if key.size ≤ j + 1 then 0 else j + 1) ws

def takePlaces : (steps : Nat) → (i : Nat) → Array UInt32 → Array UInt32
  | 0, _, ws => ws
  | steps + 1, i, ws =>
    let ws := ws.setIfInBounds i (mixed 1566083941 ws i - UInt32.ofNat i)
    let (ws, i) := advance ws i
    takePlaces steps i ws

/-- the state that a key of words gives; all its words count as used -/
def seeded (key : List UInt32) : State :=
  let (ws, i) := addKey key.toArray (max size key.length) 1 0 (fill 19650218)
  { words := (takePlaces (size - 1) i ws).setIfInBounds 0 0x80000000, used := size }

/-- the renewed word at a place: the top bit of it and the rest of the next, mixed with the word
`shift` places on -/
def renewed (ws : Array UInt32) (i : Nat) : UInt32 :=
  let y := (ws.getD i 0 &&& 0x80000000) ||| (ws.getD ((i + 1) % size) 0 &&& 0x7FFFFFFF)
  ws.getD ((i + shift) % size) 0 ^^^ (y >>> 1) ^^^ (if y &&& 1 == 0 then 0 else 0x9908B0DF)

/-- all words renewed, in order, each from those already renewed -/
def renew (ws : Array UInt32) : Array UInt32 :=
  (List.range size).foldl (fun ws i => ws.setIfInBounds i (renewed ws i)) ws

/-- how a word of the state is given out -/
def temper (y : UInt32) : UInt32 :=
  let y := y ^^^ (y >>> 11)
  let y := y ^^^ ((y <<< 7) &&& 0x9D2C5680)
  let y := y ^^^ ((y <<< 15) &&& 0xEFC60000)
  y ^^^ (y >>> 18)

def next (s : State) : UInt32 × State :=
  let s := if size ≤ s.used then { words := renew s.words, used := 0 } else s
  (temper (s.words.getD s.used 0), { s with used := s.used + 1 })

end CircuitBench.Random.Twister
