import CircuitBench.Json.Reader
import Mathlib

/-!
# Reading an object with one count

A text without marks, backslashes and control characters is read back as it stands between two
quotation marks (`takeText_plain`).  So an object that has such a text as its only name is read as
that one entry (`parse_singleton`).
-/

namespace CircuitBench.Json

open Text

/-- the character stands for itself between quotation marks -/
def isPlainText (c : Char) : Bool := c != '"' && c != '\\' && 0x20 ≤ c.toNat

theorem takeText_plain (opened : List Char) (fuel : Nat) {cs : List Char}
    (hcs : ∀ c ∈ cs, isPlainText c = true) (rest : List Char) :
    takeText opened (fuel + 1 + cs.length) (cs ++ '"' :: rest) = .ok (cs.map .char, rest) := by
  induction cs with
  | nil => rfl
  | cons c cs ih =>
    have hc := hcs c List.mem_cons_self
    simp only [isPlainText, Bool.and_eq_true, bne_iff_ne, decide_eq_true_eq] at hc
    obtain ⟨⟨hmark, hslash⟩, hcontrol⟩ := hc
    have ih := ih fun d hd => hcs d (List.mem_cons_of_mem c hd)
    have hlength : fuel + 1 + (c :: cs).length = fuel + 1 + cs.length + 1 := rfl
    rw [hlength, List.cons_append, takeText.eq_def]
    simp [Nat.not_lt.2 hcontrol, ih, bind, Except.bind, pure, Except.pure]

/-- a field with the count one that ends its object, and what follows -/
def lastField (cs rest : List Char) : List Char :=
  '"' :: (cs ++ '"' :: ':' :: ' ' :: '1' :: '\x7d' :: rest)

theorem readFields_lastField (depth fuel : Nat) {cs : List Char}
    (hcs : ∀ c ∈ cs, isPlainText c = true) (rest : List Char) :
    readFields depth (fuel + 2 + cs.length) (lastField cs rest)
      = .ok ([(⟨cs.map .char⟩, .num (.whole 1))], rest) := by
  have hfuel : fuel + 2 + cs.length = fuel + 1 + cs.length + 1 := by omega
  have hcolon : skipBlanks (':' :: ' ' :: '1' :: '\x7d' :: rest)
      = ':' :: ' ' :: '1' :: '\x7d' :: rest := rfl
  have hone : readValue depth (fuel + 1 + cs.length) (skipBlanks (' ' :: '1' :: '\x7d' :: rest))
      = .ok (.num (.whole 1), '\x7d' :: rest) := by
    have hsucc : fuel + 1 + cs.length = fuel + cs.length + 1 := by omega
    rw [hsucc]
    rfl
  have hbrace : skipBlanks ('\x7d' :: rest) = '\x7d' :: rest := rfl
  rw [hfuel, lastField, readFields]
  simp only [readText, takeText_plain _ _ hcs, bind, Except.bind, pure, Except.pure, hcolon, hone,
    hbrace]

theorem readValue_lastField (fuel : Nat) {cs : List Char} (hcs : ∀ c ∈ cs, isPlainText c = true)
    (rest : List Char) :
    readValue nestingLimit (fuel + 3 + cs.length) ('\x7b' :: lastField cs rest)
      = .ok (.obj [(⟨cs.map .char⟩, .num (.whole 1))], rest) := by
  have hfuel : fuel + 3 + cs.length = fuel + 2 + cs.length + 1 := by omega
  have hmark : skipBlanks (lastField cs rest) = lastField cs rest := rfl
  have hlimit : ¬ nestingLimit = 0 := by decide
  rw [hfuel, readValue]
  simp only [if_neg hlimit, hmark]
  -- an object whose first character is a mark is not the empty one
  show (readFields _ (fuel + 2 + cs.length) (lastField cs rest)
    >>= fun r => pure (Json.obj (putAll r.1), r.2)) = _
  rw [readFields_lastField _ _ hcs]
  rfl

theorem parse_singleton {s : String} (hs : ∀ c ∈ s.toList, isPlainText c = true) :
    parse ("\x7b\"" ++ s ++ "\": 1\x7d\n") = .ok (.obj [(.ofString s, .num (.whole 1))]) := by
  have hchars : ("\x7b\"" ++ s ++ "\": 1\x7d\n").toList
      = '\x7b' :: lastField s.toList ['\n'] := by
    rw [String.toList_append, String.toList_append]
    rfl
  have hfuel : 2 * ('\x7b' :: lastField s.toList ['\n']).length + 2
      = s.toList.length + 15 + 3 + s.toList.length := by
    simp only [lastField, List.length_cons, List.length_append, List.length_nil]
    omega
  have hgo : readDocument.go ('\x7b' :: lastField s.toList ['\n'])
      = .ok (.obj [(.ofString s, .num (.whole 1))]) := by
    have hblank (cs : List Char) : skipBlanks ('\x7b' :: cs) = '\x7b' :: cs := rfl
    rw [readDocument.go, hblank, hfuel, readValue_lastField _ hs]
    rfl
  rw [parse, hchars, readDocument, if_neg (by decide), hgo]
  rfl

end CircuitBench.Json
