import CircuitBench.Text.Quoted

/-!
# Texts with lone halves

A text that was written in code units may hold half of a pair without the other one.  Such a half is
no character; a wide text is a list of characters and lone halves.

* `Wide.ofString`    every text is a wide text;
* `Wide.toString`    the text with replacement characters for the lone halves;
* `Wide.quote`       a wide text as it is shown inside a message.
-/

namespace CircuitBench.Text

/-- a character, or half of a pair: `half n` is the code unit `0xD800 + n` -/
inductive Point where
  | char (c : Char)
  | half (n : Fin 0x800)
  deriving DecidableEq, Repr

/-- the character that stands for what is no character -/
def replacement : Char := Char.ofNat 0xFFFD

namespace Point

/-- the code unit `n` on its own -/
def ofUnit (n : Nat) : Point :=
  if h : 0xD800 ≤ n ∧ n < 0xE000 then .half ⟨n - 0xD800, by omega⟩ else .char (Char.ofNat n)

def toChar : Point → Char
  | .char c => c
  | .half _ => replacement

def escape (mark : Char) : Point → List Char
  | .char c => escapeChar mark c
  | .half n => escapeCode (0xD800 + n)

end Point

structure Wide where
  points : List Point
  deriving DecidableEq, Repr

namespace Wide

def ofChars (cs : List Char) : Wide := ⟨cs.map .char⟩

def ofString (s : String) : Wide := ofChars s.toList

def toChars (w : Wide) : List Char := w.points.map Point.toChar

def toString (w : Wide) : String := String.ofList w.toChars

def append (v w : Wide) : Wide := ⟨v.points ++ w.points⟩

instance : Append Wide := ⟨append⟩

def quote (w : Wide) : String :=
  let mark := markFor w.toChars
  String.ofList (mark :: w.points.flatMap (Point.escape mark) ++ [mark])

@[simp] theorem toChars_ofChars (cs : List Char) : (ofChars cs).toChars = cs := by
  simp only [toChars, ofChars, List.map_map]
  exact List.map_id cs

@[simp] theorem toString_ofString (s : String) : (ofString s).toString = s := by
  simp [toString, ofString]

end Wide

end CircuitBench.Text
