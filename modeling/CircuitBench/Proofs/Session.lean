import CircuitBench.Session
import CircuitBench.Proofs.Tree.Frame

/-!
# What jobs do to a session

A job is taken apart at its first step: `perform_bind_ok` and `perform_bind_error` say how it goes
on after that step has ended well or with a fault.  The other lemmas say what the single steps do.
A step that only looks at the session leaves it as it is (`perform_readText`, `perform_account`); a
step that writes a file puts it in its place (`perform_writeFile`).

A supply gives its items one after the other and the last one over and over: `itemAt` is its `k`-th
item, and `Taken` says which items were taken from it.  A session may list paths in any order, so
every rearrangement of a listing is the listing of some session (`exists_order`).

`Job.Keeps`, `Job.Passes` and `Job.Delivers` are what a whole job does to the file tree.  The first
leaves it as it is; the second does so and ends well; the third ends well wherever its file can be
written, and writes that file.  A job of which `Job.Speaks` holds changes nothing at all: it adds
events, and gives the same whatever has happened before.  They go along with the sequence of jobs.
-/

namespace CircuitBench

/-- the session after more events -/
def Session.say (σ : Session) (es : List Event) : Session := { σ with past := es.reverse ++ σ.past }

@[simp] theorem Session.events_say (σ : Session) (es : List Event) :
    (σ.say es).events = σ.events ++ es := by
  simp [Session.say, Session.events]

@[simp] theorem Session.say_say (σ : Session) (es fs : List Event) :
    (σ.say es).say fs = σ.say (es ++ fs) := by
  simp [Session.say]

theorem Session.calls_say (σ : Session) (es : List Event) :
    (σ.say es).calls = σ.calls ++ es.filterMap Event.call? := by
  rw [Session.calls, Session.events_say, List.filterMap_append]
  rfl

theorem Session.calls_say_calls (σ : Session) (cs : List Call) :
    (σ.say (cs.map .call)).calls = σ.calls ++ cs := by
  rw [Session.calls_say, List.filterMap_map]
  exact congrArg (σ.calls ++ ·) List.filterMap_some

theorem Session.output_say (σ : Session) (es : List Event) :
    (σ.say es).output = σ.output ++ String.join (es.filterMap Event.printed?) := by
  rw [Session.output, Session.events_say, List.filterMap_append, String.join_append]
  rfl

/-- the session after a look at the clock -/
def Session.tick (σ : Session) : Session := { σ with clock := (nextOf (.real 0) σ.clock).2 }

/-- the session after an execution has given its outcome -/
def Session.spend (σ : Session) : Session := { σ with outcomes := (nextOf .plain σ.outcomes).2 }

theorem Session.tick_say (σ : Session) (es : List Event) : (σ.say es).tick = σ.tick.say es := rfl

theorem Session.spend_say (σ : Session) (es : List Event) : (σ.say es).spend = σ.spend.say es := rfl

/-- the session after random numbers have been drawn -/
def Session.redraw (σ : Session) (random : Random.Source) (draws : List Number) : Session :=
  { σ with random := random, draws := draws }

/-- the session after a text has been written -/
def Session.write (σ : Session) (place : Place) (text : String) : Session :=
  { σ with tree := σ.tree.put place (.file (.text text)) }

theorem Session.write_write (σ : Session) (place : Place) (a b : String) :
    (σ.write place a).write place b = σ.write place b := by
  simp [Session.write, Tree.put_put]

/-- the text of a content with one kind of line end; bytes that are no text have none -/
def Content.text? : Content → Option (List Char)
  | .text s => some (Text.newlines s.toList)
  | .raw bytes => (Text.Utf8.decode bytes).toOption.map Text.newlines

/-! ## supplies -/

section
variable {α : Type} {default : α} {xs ys zs : List α}

/-- the `k`-th item of a supply in which the last one repeats -/
def itemAt (default : α) (xs : List α) (k : Nat) : α := xs.getD (min k (xs.length - 1)) default

theorem itemAt_zero (default : α) (xs : List α) : itemAt default xs 0 = (nextOf default xs).1 := by
  match xs with
  | [] => rfl
  | [a] => rfl
  | a :: b :: xs => rfl

theorem itemAt_succ (default : α) (xs : List α) (k : Nat) :
    itemAt default xs (k + 1) = itemAt default (nextOf default xs).2 k := by
  match xs with
  | [] => simp [itemAt, nextOf]
  | [a] => simp [itemAt, nextOf]
  | a :: b :: xs =>
    have hmin : min (k + 1) (xs.length + 1) = min k xs.length + 1 := by omega
    simp [itemAt, nextOf, hmin]

/-- the items were taken from the first supply, one after the other, and left the second one -/
structure Taken (default : α) (xs items ys : List α) : Prop where
  drawn : items = (List.range items.length).map (itemAt default xs)
  left : ∀ k, itemAt default ys k = itemAt default xs (items.length + k)
  sub : ∀ a ∈ ys, a ∈ xs

theorem Taken.refl (default : α) (xs : List α) : Taken default xs [] xs where
  drawn := rfl
  left := by simp
  sub := fun _ h => h

theorem Taken.next (default : α) (xs : List α) :
    Taken default xs [(nextOf default xs).1] (nextOf default xs).2 where
  drawn := by simp [itemAt_zero]
  left := by
    intro k
    rw [← itemAt_succ, List.length_singleton, Nat.add_comm]
  sub := fun _ h => mem_of_mem_nextOf h

theorem Taken.trans {as bs : List α} (h : Taken default xs as ys) (h' : Taken default ys bs zs) :
    Taken default xs (as ++ bs) zs where
  drawn := by
    have hrest : (List.range bs.length).map (itemAt default ys) =
        ((List.range bs.length).map (as.length + ·)).map (itemAt default xs) := by
      rw [List.map_map]
      exact List.map_congr_left fun k _ => h.left k
    rw [List.length_append, List.range_add, List.map_append, ← h.drawn, ← hrest,
      ← h'.drawn]
  left := by
    intro k
    rw [h'.left, h.left, List.length_append, Nat.add_assoc]
  sub := fun a ha => h.sub a (h'.sub a ha)

end

/-! ## listings -/

/-- the session with another order of listings -/
def Session.relist (σ : Session) (order : List String → List String) : Session :=
  { σ with order := order }

/-- an order that rearranges one listing and leaves the others as they are -/
theorem exists_order {paths listing : List String} (h : listing.Perm paths) :
    ∃ order : List String → List String, (∀ ps, (order ps).Perm ps) ∧ order paths = listing := by
  refine ⟨fun ps => if ps = paths then listing else ps, ?_, if_pos rfl⟩
  intro ps
  dsimp only
  split_ifs with hps
  · rwa [hps]
  · exact .refl ps

namespace Job

variable {α β : Type} {job : Job α} {next : α → Job β} {σ σ' : Session}

theorem perform_bind_ok {a : α} (h : job.perform σ = (.ok a, σ')) :
    (job >>= next).perform σ = (next a).perform σ' := by
  rw [perform_bind, h]

theorem perform_bind_error {fault : Fault} (h : job.perform σ = (.error fault, σ')) :
    (job >>= next).perform σ = (.error fault, σ') := by
  rw [perform_bind, h]

theorem perform_get (σ : Session) : (get : Job Session).perform σ = (.ok σ, σ) := rfl

theorem perform_say (c : Call) (σ : Session) :
    (call c).perform σ = (.ok (), σ.say [.call c]) := rfl

theorem perform_callAll (cs : List Call) (σ : Session) :
    (callAll cs).perform σ = (.ok (), σ.say (cs.map .call)) := rfl

theorem perform_takeText (name : String) (σ : Session) :
    (takeText name).perform σ
      = (.ok (σ.programs σ.calls name), σ.say [.call (.takeText name)]) := rfl

theorem perform_tick (σ : Session) :
    now.perform σ = (.ok (nextOf (.real 0) σ.clock).1, σ.tick) := rfl

theorem perform_nextOutcome_done {status : String} {counts : List (String × Json)}
    {time : Option Json} (h : (nextOf .plain σ.outcomes).1 = .done status counts time) :
    nextOutcome.perform σ = (.ok (status, counts, time), σ.spend) := by
  rw [perform_nextOutcome, h]
  rfl

theorem perform_nextOutcome_error
    (h : ∀ status counts time, (nextOf .plain σ.outcomes).1 ≠ .done status counts time) :
    ∃ fault, nextOutcome.perform σ = (.error fault, σ.spend) := by
  rw [perform_nextOutcome]
  cases ho : (nextOf .plain σ.outcomes).1 with
  | done status counts time => exact absurd ho (h status counts time)
  | failed kind message => exact ⟨_, rfl⟩
  | interrupted message => exact ⟨_, rfl⟩

theorem perform_printLine (t : String) (σ : Session) :
    (printLine t).perform σ = (.ok (), σ.say [.printed (t ++ "\n")]) := rfl

theorem perform_pathExists (path : String) (σ : Session) :
    (pathExists path).perform σ = (.ok (σ.tree.pathExists path), σ) := rfl

theorem perform_readText (path : String) (σ : Session) :
    ∃ r, (readText path Text.Utf8.decode).perform σ = (r, σ) ∧
      ∀ cs, r = .ok cs ↔ ∃ content, σ.tree.read path = .ok content ∧ content.text? = some cs := by
  have hfile : (readFile path).perform σ = (lift (.path path) (σ.tree.read path)).perform σ := rfl
  cases hread : σ.tree.read path with
  | error fault =>
    rw [hread] at hfile
    exact ⟨_, perform_bind_error hfile, by simp⟩
  | ok content =>
    rw [hread] at hfile
    rw [readText, perform_bind_ok hfile]
    cases content with
    | text s => exact ⟨_, rfl, by simp [Content.text?]⟩
    | raw bytes =>
      dsimp only
      cases hd : Text.Utf8.decode bytes with
      | error fault =>
        exact ⟨_, perform_bind_error rfl, by simp [Content.text?, hd, Except.toOption]⟩
      | ok cs => exact ⟨_, perform_bind_ok rfl, by simp [Content.text?, hd, Except.toOption]⟩

/-- a file that is text is read whatever the decoding -/
theorem perform_readText_text {path s : String} (h : σ.tree.read path = .ok (.text s))
    (decode : List UInt8 → Except Text.Utf8.Fault (List Char)) :
    (readText path decode).perform σ = (.ok (Text.newlines s.toList), σ) := by
  have hfile : (readFile path).perform σ = (lift (.path path) (σ.tree.read path)).perform σ := rfl
  rw [h] at hfile
  exact perform_bind_ok hfile

theorem perform_readText_error {path : String} {fault : Tree.Fault}
    (h : σ.tree.read path = .error fault)
    (decode : List UInt8 → Except Text.Utf8.Fault (List Char)) :
    (readText path decode).perform σ = (.error (.path path fault), σ) := by
  have hfile : (readFile path).perform σ = (lift (.path path) (σ.tree.read path)).perform σ := rfl
  rw [h] at hfile
  exact perform_bind_error hfile

theorem perform_account (σ : Session) : ∃ r, account.perform σ = (r, σ) := by
  rw [account, perform_bind_ok (perform_get σ)]
  rcases σ.account with _ | ⟨_ | token, _ | settings⟩
  · exact ⟨_, rfl⟩
  · exact ⟨_, rfl⟩
  · exact ⟨_, rfl⟩
  · exact ⟨_, rfl⟩
  · dsimp only
    cases fieldOf "url" settings with
    | error fault => exact ⟨_, perform_bind_error rfl⟩
    | ok url => exact ⟨_, perform_bind_ok rfl⟩

/-! ## files -/

theorem perform_openFile {path : String} {place : Place} (h : σ.tree.writable path = .ok place) :
    (openFile path).perform σ = (.ok place, σ.write place "") := by
  rw [openFile, perform_bind_ok (perform_get σ), h, perform_bind_ok (perform_lift _ _ _)]
  rfl

theorem perform_openFile_error {path : String} {fault : Tree.Fault}
    (h : σ.tree.writable path = .error fault) :
    (openFile path).perform σ = (.error (.path path fault), σ) := by
  rw [openFile, perform_bind_ok (perform_get σ), h]
  exact perform_bind_error rfl

theorem perform_fillFile (place : Place) (before text : String) (σ : Session) :
    (fillFile place text).perform (σ.write place before) = (.ok (), σ.write place text) := by
  show (Except.ok (), (σ.write place before).write place text) = _
  rw [Session.write_write]

theorem perform_writeFile {path : String} {place : Place} (h : σ.tree.writable path = .ok place)
    (text : String) :
    (writeFile path text).perform σ = (.ok (), σ.write place text) := by
  rw [writeFile, perform_bind_ok (perform_openFile h), perform_fillFile]

theorem perform_writeFile_error {path : String} {fault : Tree.Fault}
    (h : σ.tree.writable path = .error fault) (text : String) :
    (writeFile path text).perform σ = (.error (.path path fault), σ) :=
  perform_bind_error (perform_openFile_error h)

theorem perform_appendFile (place : Place) (before text : String) (σ : Session) :
    (appendFile place text).perform (σ.write place before)
      = (.ok (), σ.write place (before ++ text)) := by
  show (Except.ok (), { σ with tree := (σ.write place before).tree.appendText place text }) = _
  rw [Session.write, Tree.appendText_put]
  rfl

/-- a file that has been written can be opened again, to write on at its end -/
theorem perform_extendFile {path : String} {place : Place} (h : σ.tree.writable path = .ok place)
    (before text : String) :
    (extendFile path text).perform (σ.write place before)
      = (.ok (), σ.write place (before ++ text)) := by
  have hw : (σ.write place before).tree.writable path = .ok place := Tree.writable_put h h _
  rw [extendFile, perform_bind_ok (perform_get _), hw, perform_bind_ok (perform_lift _ _ _),
    perform_appendFile]

/-! ## what whole jobs do to the tree -/

theorem forM_append (as bs : List α) (job : α → Job Unit) :
    (as ++ bs).forM job = (as.forM job >>= fun _ => bs.forM job) := by
  rw [List.forM_eq_forM]
  exact List.forM_append

/-- the job leaves the tree as it is -/
def Keeps (job : Job α) : Prop := ∀ σ, (job.perform σ).2.tree = σ.tree

/-- the job ends well with a result of the property, and leaves the tree as it is -/
def Passes (P : α → Prop) (job : Job α) : Prop :=
  ∀ σ, ∃ a σ', job.perform σ = (.ok a, σ') ∧ σ'.tree = σ.tree ∧ P a

/-- where the path can be written, the job ends well, and all that it has done to the tree is to
write a file there -/
def Delivers (path : String) (job : Job α) : Prop :=
  ∀ σ place, σ.tree.writable path = .ok place → ∃ a σ' text,
    job.perform σ = (.ok a, σ') ∧ σ'.tree = σ.tree.put place (.file (.text text))

theorem Keeps.tree {a : Except Fault α} (h : Keeps job) (hp : job.perform σ = (a, σ')) :
    σ'.tree = σ.tree := by
  have htree := h σ
  rwa [hp] at htree

theorem Passes.bind_delivers {P : α → Prop} {path : String} (h : Passes P job)
    (hnext : ∀ a, P a → Delivers path (next a)) : Delivers path (job >>= next) := by
  intro σ place hw
  obtain ⟨a, τ, hjob, htree, ha⟩ := h σ
  rw [← htree] at hw ⊢
  obtain ⟨b, σ', text, hrest, hput⟩ := hnext a ha τ place hw
  exact ⟨b, σ', text, (perform_bind_ok hjob).trans hrest, hput⟩

theorem Delivers.bind_passes {P : β → Prop} {path : String} (h : Delivers path job)
    (hnext : ∀ a, Passes P (next a)) : Delivers path (job >>= next) := by
  intro σ place hw
  obtain ⟨a, τ, text, hjob, hput⟩ := h σ place hw
  obtain ⟨b, σ', hrest, htree, _⟩ := hnext a τ
  exact ⟨b, σ', text, (perform_bind_ok hjob).trans hrest, htree.trans hput⟩

theorem Passes.bind {P : α → Prop} {Q : β → Prop} (h : Passes P job)
    (hnext : ∀ a, P a → Passes Q (next a)) : Passes Q (job >>= next) := by
  intro σ
  obtain ⟨a, τ, hjob, htree, ha⟩ := h σ
  obtain ⟨b, σ', hrest, htree', hb⟩ := hnext a ha τ
  exact ⟨b, σ', (perform_bind_ok hjob).trans hrest, htree'.trans htree, hb⟩

theorem passes_pure {P : α → Prop} {a : α} (ha : P a) : Passes P (pure a) :=
  fun σ => ⟨a, σ, rfl, rfl, ha⟩

theorem passes_call (c : Call) : Passes (fun _ => True) (call c) := fun _ =>
  ⟨(), _, rfl, rfl, trivial⟩

theorem passes_callAll (cs : List Call) : Passes (fun _ => True) (callAll cs) := fun _ =>
  ⟨(), _, rfl, rfl, trivial⟩

theorem passes_takeText (name : String) : Passes (fun _ => True) (takeText name) := fun σ =>
  ⟨_, _, perform_takeText name σ, rfl, trivial⟩

theorem delivers_writeFile (path text : String) : Delivers path (writeFile path text) :=
  fun _ _ hw => ⟨(), _, text, perform_writeFile hw text, rfl⟩

theorem perform_bind_inv {b : β} (h : (job >>= next).perform σ = (.ok b, σ')) :
    ∃ a τ, job.perform σ = (.ok a, τ) ∧ (next a).perform τ = (.ok b, σ') := by
  rw [perform_bind] at h
  rcases hj : job.perform σ with ⟨r, τ⟩
  rw [hj] at h
  cases r with
  | error fault => cases (Prod.mk.inj h).1
  | ok a => exact ⟨a, τ, rfl, h⟩

theorem Keeps.bind (h : Keeps job) (hnext : ∀ a, Keeps (next a)) : Keeps (job >>= next) := by
  intro σ
  rw [perform_bind]
  rcases hj : job.perform σ with ⟨r, τ⟩
  have htree := h.tree hj
  cases r with
  | error fault => exact htree
  | ok a => exact (hnext a τ).trans htree

theorem keeps_pure (a : α) : Keeps (pure a : Job α) := fun _ => rfl

theorem keeps_throw (fault : Fault) : Keeps (throw fault : Job α) := fun _ => rfl

theorem keeps_lift {ε : Type} (f : ε → Fault) (r : Except ε α) : Keeps (lift f r) := by
  cases r with
  | error e => exact keeps_throw _
  | ok a => exact keeps_pure a

theorem keeps_given (fault : Fault) (g : Given α) : Keeps (given fault g) := keeps_lift _ _

theorem keeps_call (c : Call) : Keeps (call c) := fun _ => rfl

theorem keeps_callAll (cs : List Call) : Keeps (callAll cs) := fun _ => rfl

theorem keeps_forM {job : α → Job Unit} {as : List α} (h : ∀ a ∈ as, Keeps (job a)) :
    Keeps (as.forM job) := by
  induction as with
  | nil => exact keeps_pure ()
  | cons a as ih =>
    exact (h a List.mem_cons_self).bind fun _ => ih fun b hb => h b (List.mem_cons_of_mem a hb)

theorem perform_drawReal (σ : Session) :
    ∃ x random draws, drawReal.perform σ = (.ok x, σ.redraw random draws) := by
  rw [drawReal, perform_bind_ok (perform_get σ)]
  cases σ.draws with
  | nil => exact ⟨_, _, [], rfl⟩
  | cons a as => exact ⟨_, σ.random, _, rfl⟩

/-! ## jobs that only speak -/

/-- the job adds events and does nothing else, and earlier events make no difference to it -/
def Speaks (job : Job α) : Prop :=
  ∀ σ : Session, ∃ r es, ∀ fs, job.perform (σ.say fs) = (r, σ.say (fs ++ es))

theorem Speaks.perform (h : Speaks job) (σ : Session) :
    ∃ r es, job.perform σ = (r, σ.say es) := by
  obtain ⟨r, es, hjob⟩ := h σ
  exact ⟨r, es, hjob []⟩

theorem Speaks.bind (h : Speaks job) (hnext : ∀ a, Speaks (next a)) : Speaks (job >>= next) := by
  intro σ
  obtain ⟨r, es, hjob⟩ := h σ
  cases r with
  | error fault => exact ⟨_, es, fun fs => perform_bind_error (hjob fs)⟩
  | ok a =>
    obtain ⟨r', es', hrest⟩ := hnext a σ
    refine ⟨r', es ++ es', fun fs => ?_⟩
    rw [perform_bind_ok (hjob fs), hrest, List.append_assoc]

/-- a job that looks at the session, but not at what has happened -/
theorem speaks_get {f : Session → Job α} (hsay : ∀ σ fs, f (σ.say fs) = f σ)
    (h : ∀ σ, Speaks (f σ)) : Speaks (get >>= f) := by
  intro σ
  obtain ⟨r, es, hf⟩ := h σ σ
  refine ⟨r, es, fun fs => ?_⟩
  rw [perform_bind_ok (perform_get _), hsay, hf]

theorem speaks_pure (a : α) : Speaks (pure a : Job α) := by
  intro σ
  exact ⟨.ok a, [], fun fs => by rw [List.append_nil]; rfl⟩

theorem speaks_throw (fault : Fault) : Speaks (throw fault : Job α) := by
  intro σ
  exact ⟨.error fault, [], fun fs => by rw [List.append_nil]; rfl⟩

theorem speaks_lift {ε : Type} (f : ε → Fault) (r : Except ε α) : Speaks (lift f r) := by
  cases r with
  | error e => exact speaks_throw _
  | ok a => exact speaks_pure a

theorem speaks_callAll (cs : List Call) : Speaks (callAll cs) := by
  intro σ
  exact ⟨.ok (), cs.map .call, fun fs => by rw [perform_callAll, Session.say_say]⟩

theorem speaks_printText (t : String) : Speaks (printText t) := by
  intro σ
  refine ⟨.ok (), [.printed t], fun fs => ?_⟩
  rw [← Session.say_say]
  rfl

theorem speaks_readText (path : String)
    (decode : List UInt8 → Except Text.Utf8.Fault (List Char)) : Speaks (readText path decode) := by
  have hfile : Speaks (readFile path) := speaks_get (fun _ _ => rfl) fun _ => speaks_lift _ _
  refine hfile.bind fun content => ?_
  cases content with
  | text s => exact speaks_pure _
  | raw bytes => exact (speaks_lift _ _).bind fun _ => speaks_pure _

theorem speaks_forM {job : α → Job Unit} (h : ∀ a, Speaks (job a)) (as : List α) :
    Speaks (as.forM job) := by
  induction as with
  | nil => exact speaks_pure ()
  | cons a as ih => exact (h a).bind fun _ => ih

/-- a loop ends well only if every round does -/
theorem Speaks.perform_forM {job : α → Job Unit} (h : ∀ a, Speaks (job a)) {as : List α}
    (hok : (as.forM job).perform σ = (.ok (), σ')) :
    ∀ a ∈ as, ∃ es, (job a).perform σ = (.ok (), σ.say es) := by
  induction as generalizing σ with
  | nil => simp
  | cons b as ih =>
    obtain ⟨_, τ, hb, hrest⟩ := perform_bind_inv hok
    obtain ⟨r, es, hjob⟩ := h b σ
    have hfirst := hjob []
    rw [List.nil_append] at hfirst
    obtain ⟨rfl, rfl⟩ := Prod.mk.inj (hfirst.symm.trans hb)
    intro a ha
    rcases List.mem_cons.1 ha with rfl | ha
    · exact ⟨es, hfirst⟩
    · obtain ⟨fs, hfs⟩ := ih hrest a ha
      obtain ⟨r', es', hjob'⟩ := h a σ
      -- the later rounds give the same as they would have given at first
      have hthere := hjob' es
      rw [hfs] at hthere
      have hhere := hjob' []
      rw [List.nil_append, ← (Prod.mk.inj hthere).1] at hhere
      exact ⟨es', hhere⟩

end Job

end CircuitBench
