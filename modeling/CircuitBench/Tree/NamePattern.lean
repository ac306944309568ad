/-!
# Patterns for file names

In a pattern `*` stands for any characters, `?` for one character and `[...]` for one character of
a set; `[!...]` for one outside the set.  A bracket that is never closed stands for itself.

In a set a hyphen between two characters makes a range; a range whose ends are in the wrong order
is left out, together with its ends.

* `fits`          whether a pattern stands for a name;
* `fitsEnds`      the same for all ends of the name at once, in one step for every piece and
                  character (`fitsEnds_eq`); `fitsAll` takes its first answer.
-/

namespace CircuitBench.NamePattern

inductive Piece where
  | any
  | one
  | char (c : Char)
  | oneOf (negated : Bool) (ranges : List (Char × Char))
  deriving DecidableEq, Repr

/-- the characters of a set: those that stand for themselves, and the hyphens of ranges -/
inductive SetItem where
  | char (c : Char)
  | through
  deriving DecidableEq, Repr

/-- cut a set at the hyphens that make ranges: such a hyphen has a character before it that ends
no other range, and one after it; `chunk` holds the characters since the last cut, backwards -/
def cutRanges : (chunk : List Char) → List Char → List (List Char)
  | chunk, '-' :: c :: d :: cs => chunk.reverse :: cutRanges [d, c] cs
  | chunk, ['-', c] => [chunk.reverse, [c]]
  | chunk, c :: cs => cutRanges (c :: chunk) cs
  | chunk, [] => [chunk.reverse]

/-- leave out the ranges whose ends are in the wrong order, the last one first -/
def dropReversed : List (List Char) → List (List Char)
  | [] => []
  | chunk :: chunks =>
    match dropReversed chunks, chunk.getLast? with
    | next :: rest, some a =>
      match next with
      | b :: next' =>
        if b < a then (chunk.dropLast ++ next') :: rest else chunk :: next :: rest
      | [] => chunk :: next :: rest
    | rest, _ => chunk :: rest

/-- the chunks as one list, with the hyphens of the ranges between them -/
def setItems : List (List Char) → List SetItem
  | [] => []
  | [chunk] => chunk.map .char
  | chunk :: chunks => chunk.map .char ++ .through :: setItems chunks

def ranges : List SetItem → List (Char × Char)
  | .char a :: .through :: .char b :: items => (a, b) :: ranges items
  | .char a :: items => (a, a) :: ranges items
  | .through :: items => ('-', '-') :: ranges items
  | [] => []

/-- the piece that the inside of a pair of brackets stands for -/
def setPiece (inside : List Char) : Piece :=
  let chunks :=
    match inside with
    | '!' :: c :: cs => cutRanges [c, '!'] cs
    | c :: cs => cutRanges [c] cs
    | [] => []
  match setItems (dropReversed chunks) with
  | .char '!' :: items => .oneOf true (ranges items)
  | items => .oneOf false (ranges items)

/-- the inside of the brackets that open before `cs`, and what follows them: the first character
of the set may be a closing bracket -/
def takeSet? (cs : List Char) : Option (List Char × List Char) :=
  let (lead, cs) := match cs with
    | '!' :: ']' :: cs => (['!', ']'], cs)
    | '!' :: cs => (['!'], cs)
    | ']' :: cs => ([']'], cs)
    | cs => ([], cs)
  match cs.dropWhile (· ≠ ']') with
  | [] => none
  | _ :: rest => some (lead ++ cs.takeWhile (· ≠ ']'), rest)

def read : (fuel : Nat) → List Char → List Piece
  | 0, _ => []
  | _, [] => []
  | fuel + 1, '*' :: cs => .any :: read fuel cs
  | fuel + 1, '?' :: cs => .one :: read fuel cs
  | fuel + 1, '[' :: cs =>
    match takeSet? cs with
    | some (inside, rest) => setPiece inside :: read fuel rest
    | none => .char '[' :: read fuel cs
  | fuel + 1, c :: cs => .char c :: read fuel cs

def ofChars (cs : List Char) : List Piece := read cs.length cs

def Piece.accepts (c : Char) : Piece → Bool
  | .any => true
  | .one => true
  | .char d => c == d
  | .oneOf negated ranges => ranges.any (fun r => r.1 ≤ c && c ≤ r.2) != negated

def fits : List Piece → List Char → Bool
  | [], cs => cs.isEmpty
  | .any :: ps, [] => fits ps []
  | .any :: ps, c :: cs => fits ps (c :: cs) || fits (.any :: ps) cs
  | p :: ps, c :: cs => p.accepts c && fits ps cs
  | _ :: _, [] => false
termination_by ps cs => (ps.length, cs.length)

/-- the ends of a name, from the whole name to the empty one -/
def ends : List Char → List (List Char)
  | [] => [[]]
  | c :: cs => (c :: cs) :: ends cs

/-- the answers for `*` and a pattern, given those for the pattern -/
def anyEnds : List Bool → List Bool
  | [] => []
  | b :: bs =>
    let after := anyEnds bs
    (b || after.headD false) :: after

/-- the answers for a piece of one character and a pattern, given those for the pattern -/
def pieceEnds (p : Piece) : List Char → List Bool → List Bool
  | c :: cs, _ :: bs => (p.accepts c && bs.headD false) :: pieceEnds p cs bs
  | _, _ => [false]

/-- for every end of a name whether the pattern stands for it -/
def fitsEnds : List Piece → List Char → List Bool
  | [], cs => (ends cs).map List.isEmpty
  | .any :: ps, cs => anyEnds (fitsEnds ps cs)
  | p :: ps, cs => pieceEnds p cs (fitsEnds ps cs)

/-- whether a pattern stands for a whole name -/
def fitsAll (ps : List Piece) (cs : List Char) : Bool := (fitsEnds ps cs).headD false

/-- a text with one of the three special characters is a pattern -/
def isPattern (cs : List Char) : Bool := cs.any fun c => c == '*' || c == '?' || c == '['

@[simp] theorem fits_nil (cs : List Char) : fits [] cs = cs.isEmpty := by simp [fits]

theorem fits_char_cons (d c : Char) (ps : List Piece) (cs : List Char) :
    fits (.char d :: ps) (c :: cs) = (c == d && fits ps cs) := by simp [fits, Piece.accepts]

theorem headD_map_ends (f : List Char → Bool) (cs : List Char) :
    ((ends cs).map f).headD false = f cs := by
  cases cs <;> rfl

theorem anyEnds_map (ps : List Piece) (cs : List Char) :
    anyEnds ((ends cs).map (fits ps)) = (ends cs).map (fits (.any :: ps)) := by
  induction cs with
  | nil => simp [ends, anyEnds, fits]
  | cons c cs ih =>
    rw [ends, List.map_cons, anyEnds, ih, headD_map_ends, List.map_cons]
    simp [fits]

theorem pieceEnds_map (p : Piece) (hp : p ≠ .any) (ps : List Piece) (cs : List Char) :
    pieceEnds p cs ((ends cs).map (fits ps)) = (ends cs).map (fits (p :: ps)) := by
  induction cs with
  | nil => cases p <;> simp_all [ends, pieceEnds, fits]
  | cons c cs ih =>
    rw [ends, List.map_cons, pieceEnds, ih, headD_map_ends, List.map_cons]
    cases p <;> simp_all [fits]

/-- the answers for all ends of a name -/
theorem fitsEnds_eq (ps : List Piece) (cs : List Char) :
    fitsEnds ps cs = (ends cs).map (fits ps) := by
  induction ps with
  | nil => exact List.map_congr_left fun _ _ => (fits_nil _).symm
  | cons p ps ih =>
    cases p with
    | any => rw [fitsEnds, ih, anyEnds_map]
    | one => rw [fitsEnds, ih, pieceEnds_map _ (by simp)]; simp
    | char d => rw [fitsEnds, ih, pieceEnds_map _ (by simp)]; simp
    | oneOf negated ranges => rw [fitsEnds, ih, pieceEnds_map _ (by simp)]; simp

theorem fitsAll_eq (ps : List Piece) (cs : List Char) : fitsAll ps cs = fits ps cs := by
  rw [fitsAll, fitsEnds_eq, headD_map_ends]

end CircuitBench.NamePattern
