/-!
# Cutting texts

* `splitOn`      the fields between the occurrences of a separator character;
* `occursIn`     whether a text occurs in another;
* `newlines`     the three line ends of text files read as one;
* `lines`        the lines of a text, without their line ends;
* `joinWith`     the inverse of `splitOn`.
-/

namespace CircuitBench.Text

/-- the fields of a text between the occurrences of `sep`: one more field than occurrences -/
def splitOn (sep : Char) : List Char → List (List Char)
  | [] => [[]]
  | c :: cs =>
    if c = sep then [] :: splitOn sep cs
    else
      match splitOn sep cs with
      | [] => [[c]]
      | field :: fields => (c :: field) :: fields

theorem splitOn_ne_nil (sep : Char) (cs : List Char) : splitOn sep cs ≠ [] := by
  cases cs with
  | nil => simp [splitOn]
  | cons c cs =>
    simp only [splitOn]
    split
    · simp
    · split <;> simp

/-- whether `part` occurs in a text, at any place -/
def occursIn {α : Type} [BEq α] (part : List α) : List α → Bool
  | [] => part.isEmpty
  | c :: cs => part.isPrefixOf (c :: cs) || occursIn part cs

/-- every line end as one line feed: a carriage return ends a line, alone or before a line feed -/
def newlines : List Char → List Char
  | [] => []
  | '\r' :: '\n' :: cs => '\n' :: newlines cs
  | c :: cs => (if c = '\r' then '\n' else c) :: newlines cs

/-- the texts with the separator between two of them -/
def joinWith (sep : String) : List String → String
  | [] => ""
  | [s] => s
  | s :: ss => s ++ sep ++ joinWith sep ss

end CircuitBench.Text
