/-!
# Blank characters

Two classes of blanks and trimming.  `isBlank` is the class that trimming a header value uses:
all characters that separate words in any script.  `isNumberBlank` is the class that may stand
around a written number: the same without the four information separators.
-/

namespace CircuitBench.Text

/-- a character that separates words -/
def isBlank (c : Char) : Bool :=
  let n := c.toNat
  (9 ≤ n && n ≤ 13) || (0x1C ≤ n && n ≤ 0x20) || n == 0x85 || n == 0xA0 || n == 0x1680 ||
    (0x2000 ≤ n && n ≤ 0x200A) || n == 0x2028 || n == 0x2029 || n == 0x202F || n == 0x205F ||
    n == 0x3000

/-- a blank that may stand around a number -/
def isNumberBlank (c : Char) : Bool :=
  isBlank c && !(0x1C ≤ c.toNat && c.toNat ≤ 0x1F)

/-- drop the characters of the class `p` at both ends -/
def trim (p : Char → Bool) (cs : List Char) : List Char :=
  ((cs.dropWhile p).reverse.dropWhile p).reverse

@[simp] theorem trim_nil (p : Char → Bool) : trim p [] = [] := rfl

end CircuitBench.Text
