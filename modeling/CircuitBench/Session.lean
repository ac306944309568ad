import CircuitBench.Fault
import CircuitBench.Random.Source
import CircuitBench.Toolkit.Answer
import CircuitBench.Toolkit.Program

/-!
# Sessions

A session is what the jobs of this library work in: a file tree, a source of random numbers, what
the toolkit and the clock will answer, and what has happened so far.  Nothing here touches the
world outside: whoever starts a session gives the answers and looks at the events.

* `Session`          the state;
* `Job α`            a computation with a result or a fault; what it did stays done on a fault;
* `Session.events`   calls to the toolkit and printed texts, in the order of time.
-/

namespace CircuitBench

inductive Event where
  | call (c : Call)
  | printed (s : String)

structure Session where
  tree : Tree
  random : Random.Source
  /-- numbers that are drawn in place of random ones, if there are any -/
  draws : List Number
  /-- successive readings of the clock -/
  clock : List Number
  outcomes : List Outcome
  /-- the text of the circuit of a name, after these calls -/
  programs : List Call → String → String
  decompositions : List (List Part)
  permutations : List (List Int)
  /-- normally distributed numbers, used over and over -/
  normals : List Float
  /-- how many normal numbers have been used -/
  normalsUsed : Nat
  account : Option Account
  /-- program texts that the toolkit does not accept, by path -/
  rejections : List (String × Rejection)
  /-- the order in which a listing gives its names -/
  order : List String → List String
  /-- what has happened, the latest first -/
  past : List Event

def defaultNormals : List Float := [1.0, 2.0, -1.5, 0.25, 3.0, -0.75, 0.5]

/-- names in the order of their characters -/
def ascending (names : List String) : List String := names.mergeSort fun a b => decide (a ≤ b)

/-- a session with no files, where everything goes well -/
def Session.initial : Session where
  tree := .dir []
  random := Random.Source.seeded (.whole 0)
  draws := []
  clock := []
  outcomes := []
  programs := fun calls _ => programText calls
  decompositions := []
  permutations := []
  normals := defaultNormals
  normalsUsed := 0
  account := none
  rejections := []
  order := ascending
  past := []

/-- calls and printed texts, in the order of time -/
def Session.events (s : Session) : List Event := s.past.reverse

def Event.call? : Event → Option Call
  | .call c => some c
  | .printed _ => none

def Event.printed? : Event → Option String
  | .call _ => none
  | .printed s => some s

def Session.calls (s : Session) : List Call := s.events.filterMap Event.call?

def Session.output (s : Session) : String := String.join (s.events.filterMap Event.printed?)

/-- the next item of a supply, in which the last one repeats, and what is left of the supply -/
def nextOf {α : Type} (default : α) : List α → α × List α
  | [] => (default, [])
  | [a] => (a, [a])
  | a :: as => (a, as)

theorem nextOf_mem {α : Type} (a : α) (as : List α) : (nextOf a as).1 ∈ a :: as := by
  match as with
  | [] => exact List.mem_cons_self
  | [b] => exact List.mem_cons_of_mem a List.mem_cons_self
  | b :: c :: bs => exact List.mem_cons_of_mem a List.mem_cons_self

theorem mem_of_mem_nextOf {α : Type} {a x : α} {as : List α} (h : x ∈ (nextOf a as).2) :
    x ∈ as := by
  match as with
  | [] => exact h
  | [b] => exact h
  | b :: c :: bs => exact List.mem_cons_of_mem b h

abbrev Job := ExceptT Fault (StateM Session)

namespace Job

/-- the result of a job and the session after it -/
def perform {α : Type} (job : Job α) (s : Session) : Except Fault α × Session := (job.run).run s

def call (c : Call) : Job Unit := modify fun s => { s with past := .call c :: s.past }

def callAll (cs : List Call) : Job Unit :=
  modify fun s => { s with past := (cs.map Event.call).reverse ++ s.past }

def printText (t : String) : Job Unit := modify fun s => { s with past := .printed t :: s.past }

def printLine (t : String) : Job Unit := printText (t ++ "\n")

/-- a result that may be a fault of a kind of its own -/
def lift {ε α : Type} (f : ε → Fault) : Except ε α → Job α
  | .ok a => pure a
  | .error e => throw (f e)

/-- the value of a setting, which must not be blank -/
def given {α : Type} (fault : Fault) (g : Given α) : Job α := lift id (g.require fault)

/-! ## files -/

/-- the names or paths of a listing in the order in which it gives them -/
def listed (names : List String) : Job (List String) := return (← get).order names

def pathExists (path : String) : Job Bool := return (← get).tree.pathExists path

def readFile (path : String) : Job Content := do lift (.path path) ((← get).tree.read path)

/-- the text of a file with one kind of line end -/
def readText (path : String) (decode : List UInt8 → Except Text.Utf8.Fault (List Char)) :
    Job (List Char) := do
  match ← readFile path with
  | .text s => return Text.newlines s.toList
  | .raw bytes => return Text.newlines (← lift .encoding (decode bytes))

/-- open a file for writing: it is there and empty, whatever it held before -/
def openFile (path : String) : Job Place := do
  let place ← lift (.path path) ((← get).tree.writable path)
  modify fun s => { s with tree := s.tree.put place (.file (.text "")) }
  return place

def fillFile (place : Place) (text : String) : Job Unit :=
  modify fun s => { s with tree := s.tree.put place (.file (.text text)) }

/-- write on at the end of an opened file -/
def appendFile (place : Place) (text : String) : Job Unit :=
  modify fun s => { s with tree := s.tree.appendText place text }

def writeFile (path text : String) : Job Unit := do fillFile (← openFile path) text

/-- open a file to write on at its end; it is made if it is not there -/
def extendFile (path text : String) : Job Unit := do
  appendFile (← lift (.path path) ((← get).tree.writable path)) text

/-! ## numbers from outside -/

def seed (seed : Random.Seed) : Job Unit :=
  modify fun s => { s with random := Random.Source.seeded seed }

/-- a random number from zero up to below one -/
def drawReal : Job Number := do
  let s ← get
  match s.draws with
  | [] =>
    let (x, random) := Random.real s.random
    set { s with random := random }
    return .real x
  | a :: as =>
    let (x, draws) := nextOf a (a :: as)
    set { s with draws := draws }
    return x

def drawIndex (count : Int) : Job Int := do
  if count ≤ 0 then throw (.emptyChoice count)
  let s ← get
  let (i, random) := Random.below count.toNat s.random
  set { s with random := random }
  return i

def now : Job Number := do
  let s ← get
  let (t, clock) := nextOf (.real 0) s.clock
  set { s with clock := clock }
  return t

def drawNormals (count : Nat) : Job (List Float) := do
  let s ← get
  let item (i : Nat) := s.normals.getD ((s.normalsUsed + i) % s.normals.length) 0
  set { s with normalsUsed := s.normalsUsed + count }
  return (List.range count).map item

/-! ## the toolkit -/

def nextOutcome : Job (String × List (String × Json) × Option Json) := do
  let s ← get
  let (outcome, outcomes) := nextOf .plain s.outcomes
  set { s with outcomes := outcomes }
  match outcome with
  | .done status counts time => return (status, counts, time)
  | .failed kind message => throw (.toolkit kind message)
  | .interrupted message => throw (.interrupted message)

def takeText (name : String) : Job String := do
  let s ← get
  call (.takeText name)
  return s.programs s.calls name

def nextDecomposition : Job (List Part) := do
  let s ← get
  let (parts, decompositions) := nextOf [] s.decompositions
  set { s with decompositions := decompositions }
  return parts

def nextPermutation (n : Given Int) : Job (List Int) := do
  let s ← get
  match s.permutations with
  | [] => return indices (← given (.kind (.count Given.blankKind)) n)
  | p :: ps =>
    let (perm, permutations) := nextOf p (p :: ps)
    set { s with permutations := permutations }
    return perm

/-- the field of a value that should have fields -/
def fieldOf (name : String) : Json → Except Fault Json
  | .obj fields =>
    match fields.lookup (.ofString name) with
    | some v => .ok v
    | none => .error (.noField name)
  | .arr _ => .error .listLookup
  | .str _ => .error .textLookup
  | v => .error (.kind (.subscript v.kind))

def account : Job (Json × Json) := do
  match (← get).account with
  | none => throw .noAccount
  | some a =>
    match a.token, a.settings with
    | none, _ => throw (.accountLacks "APItoken")
    | _, none => throw (.accountLacks "config")
    | some token, some settings => return (token, ← lift id (fieldOf "url" settings))

/-! ## what jobs do to a session -/

variable {α β : Type}

/-- the second job goes on where the first one ends, unless that ends with a fault -/
theorem perform_bind (job : Job α) (next : α → Job β) (s : Session) :
    perform (job >>= next) s =
      match perform job s with
      | (.ok a, s') => perform (next a) s'
      | (.error fault, s') => (.error fault, s') := by
  simp only [perform, ExceptT.run_bind, StateT.run_bind]
  change (match (job.run.run s) with | (r, s') => _) = _
  rcases job.run.run s with ⟨r, s'⟩
  cases r <;> rfl

@[simp] theorem perform_call (c : Call) (s : Session) :
    perform (call c) s = (.ok (), { s with past := .call c :: s.past }) := rfl

theorem perform_lift {ε : Type} (f : ε → Fault) (a : α) (s : Session) :
    perform (lift f (.ok a)) s = (.ok a, s) := rfl

theorem perform_given (fault : Fault) (a : α) (s : Session) :
    perform (given fault (.value a)) s = (.ok a, s) := rfl

theorem perform_now (s : Session) :
    perform now s = (.ok (nextOf (.real 0) s.clock).1,
      { s with clock := (nextOf (.real 0) s.clock).2 }) := rfl

theorem perform_nextOutcome (s : Session) :
    perform nextOutcome s
      = (match (nextOf .plain s.outcomes).1 with
          | .done status counts time => .ok (status, counts, time)
          | .failed kind message => .error (.toolkit kind message)
          | .interrupted message => .error (.interrupted message),
        { s with outcomes := (nextOf .plain s.outcomes).2 }) := by
  rw [nextOutcome, perform_bind]
  show perform (match (nextOf Outcome.plain s.outcomes).1 with
    | .done status counts time => pure (status, counts, time)
    | .failed kind message => throw (.toolkit kind message)
    | .interrupted message => throw (.interrupted message)) _ = _
  cases (nextOf Outcome.plain s.outcomes).1 <;> rfl

end Job

end CircuitBench
