import CircuitBench.Generate.Output
import CircuitBench.Proofs.Session
import CircuitBench.Proofs.Tree.Frame

/-!
# The two ways of an output

A program is printed line by line when there is no name for it, and written to a file piece by piece
when there is one.  Both ways go through the comments with a loop of their own, and both make the
text `commented`: `perform_output_none`, `perform_output_some`.

`OutputsAgree` says that the file of a name gets what would be printed, less the last line end, and
that nothing else happens.  It fails for the names that have the extension (`outputs_agree_iff`).
-/

namespace CircuitBench.Generate

open Job

/-- the lines of the comments and the program -/
def commented (comments : List String) (program : String) : String :=
  String.join (comments.map fun c => "//" ++ c ++ "\n") ++ program

theorem commented_nil (program : String) : commented [] program = program := by
  simp [commented]

theorem commented_cons (c : String) (cs : List String) (program : String) :
    commented (c :: cs) program = commentLine c ++ "\n" ++ commented cs program := by
  simp [commented, commentLine, String.append_assoc]

/-! ## the screen -/

def printedLines (comments : List String) (program : String) : List Event :=
  comments.map (fun c => .printed (commentLine c ++ "\n")) ++ [.printed (program ++ "\n")]

theorem perform_printComments (comments : List String) (σ : Session) :
    (comments.forM fun c => printLine (commentLine c)).perform σ
      = (.ok (), σ.say (comments.map fun c => .printed (commentLine c ++ "\n"))) := by
  induction comments generalizing σ with
  | nil => rfl
  | cons c cs ih =>
    rw [List.forM, perform_bind_ok (perform_printLine _ _), ih, Session.say_say]
    rfl

theorem perform_output_none (program : String) (comments : List String) (σ : Session) :
    (output program comments none).perform σ = (.ok (), σ.say (printedLines comments program)) := by
  rw [output, perform_bind_ok (perform_printComments comments σ), perform_printLine,
    Session.say_say]
  rfl

theorem join_printedLines (comments : List String) (program : String) :
    String.join ((printedLines comments program).filterMap Event.printed?)
      = commented comments program ++ "\n" := by
  induction comments with
  | nil => simp [printedLines, commented_nil, Event.printed?]
  | cons c cs ih =>
    have hcons : (printedLines (c :: cs) program).filterMap Event.printed?
        = (commentLine c ++ "\n") :: (printedLines cs program).filterMap Event.printed? := rfl
    rw [hcons, String.join_cons, ih, commented_cons, ← String.append_assoc]

theorem filterMap_call?_printedLines (comments : List String) (program : String) :
    (printedLines comments program).filterMap Event.call? = [] := by
  simp [printedLines, Event.call?, List.filterMap_map, Function.comp_def]

/-! ## the file -/

-- by induction on the comments, for every text that is in the file already
theorem perform_appendProgram (program : String) (comments : List String) (place : Place)
    (before : String) (σ : Session) :
    ((comments.forM fun c => do
        appendFile place (commentLine c)
        appendFile place "\n") >>= fun _ => appendFile place program).perform (σ.write place before)
      = (.ok (), σ.write place (before ++ commented comments program)) := by
  induction comments generalizing before with
  | nil => rw [List.forM, pure_bind, perform_appendFile, commented_nil]
  | cons c cs ih =>
    rw [List.forM, bind_assoc, bind_assoc, perform_bind_ok (perform_appendFile ..),
      perform_bind_ok (perform_appendFile ..), ih, commented_cons, String.append_assoc,
      String.append_assoc, String.append_assoc]

section
variable (program : String) (comments : List String) {name path : String} {σ : Session}

theorem perform_output_some {place : Place} (hpath : outputPath name = .ok path)
    (hw : σ.tree.writable path = .ok place) :
    (output program comments (some name)).perform σ
      = (.ok (), σ.write place (commented comments program)) := by
  have hlift : lift id (outputPath name) = pure path := by rw [hpath]; rfl
  rw [output, hlift, pure_bind, perform_bind_ok (perform_openFile hw), perform_appendProgram,
    String.empty_append]

theorem perform_output_unnamed {fault : Fault} (hpath : outputPath name = .error fault) :
    (output program comments (some name)).perform σ = (.error fault, σ) := by
  have hlift : (lift id (outputPath name)).perform σ = (.error fault, σ) := by rw [hpath]; rfl
  rw [output, perform_bind_error hlift]

theorem perform_output_error {fault : Tree.Fault} (hpath : outputPath name = .ok path)
    (hw : σ.tree.writable path = .error fault) :
    (output program comments (some name)).perform σ = (.error (.path path fault), σ) := by
  have hlift : lift id (outputPath name) = pure path := by rw [hpath]; rfl
  rw [output, hlift, pure_bind, perform_bind_error (perform_openFile_error hw)]

theorem output_some (hpath : outputPath name = .ok path) :
    output program comments (some name) = writeFile path (commented comments program) := by
  funext σ
  show (output program comments (some name)).perform σ = (writeFile path _).perform σ
  cases hw : σ.tree.writable path with
  | error fault =>
    rw [perform_output_error program comments hpath hw, perform_writeFile_error hw]
  | ok place => rw [perform_output_some program comments hpath hw, perform_writeFile hw]

end

/-! ## both ways -/

/-- the file that a name stands for, whether it has the extension or not -/
def programFile (name : String) : String :=
  if name.endsWith extension then name else name ++ extension

theorem outputPath_of_endsWith {name : String} (h : name.endsWith extension = true) :
    outputPath name = .error .unnamedOutput := if_pos h

theorem outputPath_of_not_endsWith {name : String} (h : name.endsWith extension = false) :
    outputPath name = .ok (programFile name) := by
  rw [outputPath, programFile, h]
  rfl

/-- Without a name the text and a line end are printed and nothing else is done.  With the name the
text is in its file; there is no event, and every other file is as it was. -/
def OutputsAgree (program : String) (comments : List String) (name : String) (σ : Session) : Prop :=
  ∃ text τ υ,
    (output program comments none).perform σ = (.ok (), τ) ∧
      τ.output = σ.output ++ (text ++ "\n") ∧ τ.calls = σ.calls ∧ τ.tree = σ.tree ∧
    (output program comments (some name)).perform σ = (.ok (), υ) ∧
      υ.tree.read (programFile name) = .ok (.text text) ∧ υ.past = σ.past ∧
      ∀ place, σ.tree.writable (programFile name) ≠ .ok place → ∀ content,
        υ.tree.at? place = some (.file content) ↔ σ.tree.at? place = some (.file content)

theorem outputsAgree_of_writable (program : String) (comments : List String) {name : String}
    {σ : Session} {place : Place} (hname : name.endsWith extension = false)
    (hw : σ.tree.writable (programFile name) = .ok place) :
    OutputsAgree program comments name σ := by
  obtain ⟨above, last, rfl, htarget⟩ := Tree.exists_target hw
  refine ⟨commented comments program, _, _, perform_output_none program comments σ, ?_, ?_, rfl,
    perform_output_some program comments (outputPath_of_not_endsWith hname) hw,
    htarget.read_put _, rfl, ?_⟩
  · rw [Session.output_say, join_printedLines]
  · rw [Session.calls_say, filterMap_call?_printedLines, List.append_nil]
  · intro p hp content
    refine htarget.room.file_put_iff _ ?_ content
    rintro rfl
    exact hp hw

/-- **The two ways of an output agree except for names with the extension.**  They agree exactly if
the name does not have it and the file can be written.  A name that has the extension stands for no
file: the output ends with a fault and does nothing. -/
theorem outputs_agree_iff (program : String) (comments : List String) (name : String)
    (σ : Session) :
    (OutputsAgree program comments name σ ↔
      name.endsWith extension = false ∧
        ∃ place, σ.tree.writable (programFile name) = .ok place) ∧
    (name.endsWith extension = true →
      (output program comments (some name)).perform σ = (.error .unnamedOutput, σ)) := by
  have hfail (h : name.endsWith extension = true) :=
    perform_output_unnamed program comments (σ := σ) (outputPath_of_endsWith h)
  refine ⟨⟨?_, ?_⟩, hfail⟩
  · rintro ⟨text, τ, υ, _, _, _, _, hfile, _⟩
    have hname : name.endsWith extension = false := by
      rw [Bool.eq_false_iff]
      intro h
      rw [hfail h] at hfile
      cases (Prod.mk.inj hfile).1
    refine ⟨hname, ?_⟩
    cases hw : σ.tree.writable (programFile name) with
    | error fault =>
      rw [perform_output_error program comments (outputPath_of_not_endsWith hname) hw] at hfile
      cases (Prod.mk.inj hfile).1
    | ok place => exact ⟨place, rfl⟩
  · rintro ⟨hname, place, hw⟩
    exact outputsAgree_of_writable program comments hname hw

/-- a name without the extension in an empty tree, and one with it -/
theorem plain_name_outputs_agree :
    OutputsAgree "h q[0];\n" ["a", "b"] "x" Session.initial ∧
      (output "h q[0];\n" ["a", "b"] (some "x.qasm")).perform Session.initial
        = (.error .unnamedOutput, Session.initial) := by
  have hname : "x".endsWith extension = false := by decide +kernel
  have hextended : "x.qasm".endsWith extension = true := by decide +kernel
  have hwrite : Session.initial.tree.writable (programFile "x") = .ok ["x.qasm"] := by
    rw [programFile, hname]
    decide +kernel
  exact ⟨(outputs_agree_iff _ _ _ _).1.2 ⟨hname, ["x.qasm"], hwrite⟩,
    (outputs_agree_iff _ _ _ _).2 hextended⟩

/-- the file can be written, but the output does not write it -/
theorem extended_name_is_not_written :
    Session.initial.tree.writable (programFile "x.qasm") = .ok ["x.qasm"] ∧
      ¬ OutputsAgree "h q[0];\n" ["a"] "x.qasm" Session.initial ∧
      (output "h q[0];\n" ["a"] (some "x.qasm")).perform Session.initial
        = (.error .unnamedOutput, Session.initial) := by
  have hname : "x.qasm".endsWith extension = true := by decide +kernel
  have hwrite : Session.initial.tree.writable (programFile "x.qasm") = .ok ["x.qasm"] := by
    rw [programFile, hname]
    decide +kernel
  have hfile : (output "h q[0];\n" ["a"] (some "x.qasm")).perform Session.initial
      = (.error .unnamedOutput, Session.initial) :=
    perform_output_unnamed _ _ (outputPath_of_endsWith hname)
  refine ⟨hwrite, ?_, hfile⟩
  rintro ⟨text, τ, υ, _, _, _, _, hok, _⟩
  rw [hfile] at hok
  cases (Prod.mk.inj hok).1

end CircuitBench.Generate
