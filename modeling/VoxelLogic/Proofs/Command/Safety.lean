import VoxelLogic.Proofs.Circuit.Drawn
import VoxelLogic.Proofs.Command.Cycle
import VoxelLogic.Proofs.Command.Options

/-!
# How runs end

The program writes its file last, when nothing is left that could fail.  Every circuit that it gets
from a file and checks, and every circuit that it draws, is complete: its table, its summary, its
record and its pin file exist.  So a run either succeeds or reports an error, and only a run that
succeeds changes a file, which is the one given with the option for the output.

* `Files.Exhausts`: a pin file has a look-up table for which there is no memory.
* `Outcome.EndsWell`: how a run with some files and some output may end.
* `Command.endsWell_finish`, `Command.endsWell_run`: writing, and all of a command.
* `runArguments_safe`: whatever the arguments are, and whatever files there are.
-/

namespace VoxelLogic

/-- A pin file has a look-up table for which there is no memory. -/
def Files.Exhausts (files : Files) : Prop :=
  ∃ path bytes e, Path.extension? path = some "pins" ∧ files.source path = .content bytes ∧
    PinFile.read bytes = .error e ∧ e.isAbrupt = true

/-- A run has succeeded or failed, unless a file exhausts the memory, and if it has written a file,
it has succeeded and the file is the output. -/
structure Outcome.EndsWell (o : Outcome) (files : Files) (output : Option String) : Prop where
  ending : o.ending = .success ∨ (∃ e, o.ending = .failure e) ∨
    o.ending = .exhausted ∧ files.Exhausts
  written : ∀ path content, o.written = some (path, content) →
    o.ending = .success ∧ output = some path

namespace Command

variable {files : Files} {file printed : String} {output : Option String} {e : Error} {c : Circuit}

/-! ## Ends without a file -/

theorem written_ended_ne {ending : Ending} {written : String × String} :
    (Outcome.ended printed ending).written ≠ some written :=
  (Option.some_ne_none written).symm

theorem endsWell_success : (Outcome.ended printed .success).EndsWell files output where
  ending := .inl rfl
  written _ _ h := absurd h written_ended_ne

theorem endsWell_failure : (Outcome.ended printed (.failure e)).EndsWell files output where
  ending := .inr (.inl ⟨e, rfl⟩)
  written _ _ h := absurd h written_ended_ne

/-- An error is reported unless it ends the program for want of memory. -/
theorem endsWell_ofError (h : e.isAbrupt = true → files.Exhausts) :
    (Outcome.ended printed (.ofError e)).EndsWell files output := by
  rw [Ending.ofError]
  split
  · next he => exact ⟨.inr (.inr ⟨rfl, h he⟩), fun _ _ hw => absurd hw written_ended_ne⟩
  · exact endsWell_failure

theorem endsWell_of_isAbrupt (h : e.isAbrupt = false) :
    (Outcome.ended printed (.ofError e)).EndsWell files output :=
  endsWell_ofError fun he => absurd (h.symm.trans he) Bool.false_ne_true

/-! ## Reading -/

/-- A circuit file is refused unread, or it is read as a pin file or as a record file. -/
theorem readCircuit_cases (files : Files) (file : String) :
    (∃ extension, readCircuit files file = .error (.unknownExtension extension)) ∨
    readCircuit files file = .error .unreadable ∨
    (∃ bytes, Path.extension? file = some "pins" ∧ files.source file = .content bytes ∧
      readCircuit files file = PinFile.read bytes) ∨
    readCircuit files file = (readRecord files file).bind Record.circuit := by
  rw [readCircuit]
  split
  · exact .inl ⟨_, rfl⟩
  · next extension hextension =>
    split
    · next hpins =>
      rw [hpins] at hextension
      rw [readPins]
      split
      · exact .inr (.inl rfl)
      · exact .inr (.inl rfl)
      · next bytes hsource => exact .inr (.inr (.inl ⟨bytes, hextension, hsource, rfl⟩))
    · split
      · exact .inr (.inr (.inr rfl))
      · exact .inl ⟨_, rfl⟩

/-- Only pin files exhaust the memory. -/
theorem exhausts_of_readCircuit (h : readCircuit files file = .error e)
    (he : e.isAbrupt = true) : files.Exhausts := by
  obtain ⟨extension, heq⟩ | heq | ⟨bytes, hextension, hsource, heq⟩ | heq :=
    readCircuit_cases files file
  · cases heq.symm.trans h
    cases he
  · cases heq.symm.trans h
    cases he
  · exact ⟨file, bytes, e, hextension, hsource, heq.symm.trans h, he⟩
  · rw [isAbrupt_of_json (heq.symm.trans h)] at he
    cases he

theorem isTotal_of_readCircuit (h : readCircuit files file = .ok c) : c.IsTotal := by
  obtain ⟨extension, heq⟩ | heq | ⟨bytes, -, -, heq⟩ | heq := readCircuit_cases files file
  · cases heq.symm.trans h
  · cases heq.symm.trans h
  · exact PinFile.isTotal_of_read (heq.symm.trans h)
  · obtain ⟨r, -, hcircuit⟩ := bind_eq_ok_iff.1 (heq.symm.trans h)
    exact Record.isTotal_of_circuit hcircuit

/-- A circuit that is read is complete. -/
theorem completes_of_readCircuit (h : readCircuit files file = .ok c) : c.Completes :=
  (isTotal_of_readCircuit h).completes

theorem isAbrupt_of_check (h : c.check = .error e) : e.isAbrupt = false := by
  obtain ⟨i, pin, -, rfl⟩ := Circuit.check_eq_error_iff.1 h
  rfl

/-! ## Writing -/

/-- There is a text for every path whose extension is known. -/
def Writes (text : String → Except Error (Option String)) : Prop :=
  ∀ path, (∃ content, text path = .ok (some content)) ∨
    ∃ extension, text path = .error (.unknownExtension extension)

theorem writes_circuitText (hc : c.Completes) : Writes fun path => circuitText path c := by
  intro path
  obtain ⟨content, hcontent⟩ := hc.write?
  simp only [circuitText, hcontent]
  split
  · exact .inr ⟨_, rfl⟩
  · split
    · exact .inl ⟨content, rfl⟩
    · exact .inr ⟨_, rfl⟩

theorem writes_compiledText (hc : c.Completes) {table : PackedTable}
    (htable : c.compile? = some table) : Writes fun path => compiledText path c table := by
  intro path
  have hrecord : Record.ofTable c table = .ok (Record.stored c table) :=
    Record.ofTable_eq_ok_iff.2 ⟨Circuit.checkTable_of_compile? htable, rfl⟩
  simp only [compiledText, hrecord]
  split
  · exact .inl ⟨_, rfl⟩
  · exact writes_circuitText hc path

/-- All that can fail comes before the file is written. -/
theorem endsWell_finish {text : String → Except Error (Option String)} (htext : Writes text) :
    (finish files printed output text).EndsWell files output := by
  cases output with
  | none => exact endsWell_success
  | some path =>
    rw [finish]
    obtain ⟨content, hcontent⟩ | ⟨extension, hextension⟩ := htext path
    · simp only [hcontent]
      split
      · refine ⟨.inl rfl, fun path' content' hwritten => ?_⟩
        cases hwritten
        exact ⟨rfl, rfl⟩
      · exact endsWell_failure
    · simp only [hextension]
      exact endsWell_of_isAbrupt rfl

/-! ## Tasks -/

theorem exists_tableText? (hc : c.Completes) (table : PackedTable) (print : Bool) :
    ∃ text, tableText? c table print = some text := by
  obtain ⟨t, ht⟩ := hc.truthTable
  rw [tableText?, ht]
  cases print with
  | false => exact ⟨_, rfl⟩
  | true => exact ⟨_, rfl⟩

theorem endsWell_runSummarize : (runSummarize files file).EndsWell files output := by
  rw [runSummarize]
  split
  · next he => exact endsWell_ofError (exhausts_of_readCircuit he)
  · next c hread =>
    split
    · next he => exact endsWell_of_isAbrupt (isAbrupt_of_check he)
    · have hc := completes_of_readCircuit hread
      obtain ⟨summary, hsummary⟩ := hc.summary?
      rw [hsummary]
      exact endsWell_success

theorem endsWell_runCompile {print : Bool} :
    (runCompile files file print output).EndsWell files output := by
  rw [runCompile]
  split
  · next he => exact endsWell_ofError (exhausts_of_readCircuit he)
  · next c hread =>
    split
    · next he => exact endsWell_of_isAbrupt (isAbrupt_of_check he)
    · have hc := completes_of_readCircuit hread
      obtain ⟨table, htable⟩ := hc.compile?
      obtain ⟨text, htext⟩ := exists_tableText? hc table print
      simp only [htable, htext]
      exact endsWell_finish (writes_compiledText hc htable)

theorem endsWell_runDecode : (runDecode files file output).EndsWell files output := by
  rw [runDecode]
  split
  · next he => exact endsWell_of_isAbrupt (isAbrupt_of_readRecord he)
  · next r hread =>
    split
    · next e he =>
      have hjson : (readRecord files file).bind Record.circuit = .error e :=
        bind_eq_error_iff.2 (.inr ⟨r, hread, he⟩)
      exact endsWell_of_isAbrupt (isAbrupt_of_json hjson)
    · next c hcircuit =>
      obtain ⟨t, hdecoded, -⟩ := Record.exists_truthTable hcircuit
      simp only [hdecoded]
      exact endsWell_finish (writes_circuitText (Record.isTotal_of_circuit hcircuit).completes)

theorem endsWell_runGenerate {inputs outputs : Nat} {seed : UInt64} {print : Bool}
    (h : inputs ≤ Position.siteCount ∧ outputs ≤ Position.siteCount) :
    (runGenerate files inputs outputs seed print output).EndsWell files output := by
  obtain ⟨c, hrandom⟩ : ∃ c, Circuit.random? inputs outputs seed = some c :=
    Circuit.exists_draw?_iff.2 h
  have hc := Circuit.completes_of_draw? hrandom
  obtain ⟨table, htable⟩ := hc.compile?
  obtain ⟨t, ht⟩ := hc.truthTable
  simp only [runGenerate, hrandom, htable, ht]
  cases print with
  | false => exact endsWell_finish (writes_compiledText hc htable)
  | true => exact endsWell_finish (writes_compiledText hc htable)

/-- A command succeeds or fails, and writes its output only if it succeeds. -/
theorem endsWell_run (files : Files) {command : Command} (h : command.HasSites) :
    (command.run files).EndsWell files command.output? := by
  cases command with
  | summarize file => exact endsWell_runSummarize
  | compile file print output => exact endsWell_runCompile
  | decode file output => exact endsWell_runDecode
  | generate inputs outputs seed print output => exact endsWell_runGenerate h

/-- Whatever the arguments ask for, the program ends well, and only the file that they give is
written. -/
theorem endsWell_runArguments (files : Files) (arguments : List String) :
    let o := runArguments files arguments
    (o.ending.code = 0 ∨ o.ending.code = 1 ∨ o.ending.code = 2 ∨
      o.ending = .exhausted ∧ files.Exhausts) ∧
    ∀ path content, o.written = some (path, content) →
      o.ending.code = 0 ∧ Request.Gives .output arguments path := by
  dsimp only
  rw [runArguments]
  split
  · next command hcommand =>
    have hends := endsWell_run files (Request.hasSites_of_ofArguments hcommand)
    constructor
    · rcases hends.ending with hending | ⟨e, hending⟩ | hexhausted
      · exact .inl (congrArg Ending.code hending)
      · exact .inr (.inl (congrArg Ending.code hending))
      · exact .inr (.inr (.inr hexhausted))
    · intro path content hwritten
      obtain ⟨hending, houtput⟩ := hends.written path content hwritten
      exact ⟨congrArg Ending.code hending, Request.gives_of_ofArguments hcommand houtput⟩
  · exact ⟨.inl rfl, fun _ _ h => absurd h written_ended_ne⟩
  · exact ⟨.inr (.inr (.inl rfl)), fun _ _ h => absurd h written_ended_ne⟩

end Command

open Command

/-- **Runs are safe.**  Whatever is in the files of a directory, whichever paths cannot be opened
for writing, and whatever the arguments are, the program exits with 0, 1 or 2, unless there is no
memory for a look-up table in a pin file.  If it does not exit with 0, all files are as they were,
even if a table was printed.  If it does, at most one file is new or has changed; it has been
written, and it is the one that is given with the option for the output. -/
theorem runArguments_safe (d : Directory) (writable : String → Bool) (arguments : List String) :
    let o := runArguments { d.files with writable } arguments
    (o.ending.code = 0 ∨ o.ending.code = 1 ∨ o.ending.code = 2 ∨
      o.ending = .exhausted ∧ d.files.Exhausts) ∧
    (o.ending.code ≠ 0 → o.written = none ∧ d.left o = d) ∧
    ∀ name, (d.left o).content? name ≠ d.content? name →
      ∃ path content, o.written = some (path, content) ∧ Request.Gives .output arguments path ∧
        Directory.place path = .file name ∧
        (d.left o).content? name = some (Text.encode content) := by
  intro o
  obtain ⟨hcode, hwritten⟩ := endsWell_runArguments { d.files with writable } arguments
  refine ⟨hcode, fun hfailed => ?_, fun name hchanged => ?_⟩
  · have hnone : o.written = none := by
      cases hfile : o.written with
      | none => rfl
      | some file => exact absurd (hwritten file.1 file.2 hfile).1 hfailed
    exact ⟨hnone, Directory.left_eq_self hnone⟩
  · obtain ⟨path, content, hfile, hplace⟩ :=
      Directory.exists_written_of_content?_left_ne hchanged
    exact ⟨path, content, hfile, (hwritten path content hfile).2, hplace,
      Directory.content?_left hfile hplace⟩

/-- A directory with one pin file. -/
def workshop : Directory where
  entries := [("t.pins", Text.encode "INPUT(L)\nOUTPUT(T) = NOT(L)\n")]

/-- The table of the file is printed before the extension of the output is refused, and nothing is
written. -/
theorem runArguments_safe_workshop :
    let o := runArguments workshop.files ["compile", "t.pins", "-po", "t.bench"]
    o.printed = "L   || T  \n----++----\n0   || 1  \n1   || 0  \n" ∧ o.ending.code = 1 ∧
      o.written = none ∧ workshop.left o = workshop := by
  intro o
  obtain ⟨hprinted, hcode⟩ : o.printed = "L   || T  \n----++----\n0   || 1  \n1   || 0  \n" ∧
      o.ending.code = 1 := by
    decide +kernel
  have hfailed : o.ending.code ≠ 0 := by
    rw [hcode]
    decide
  obtain ⟨-, hunchanged, -⟩ := runArguments_safe workshop workshop.files.writable
    ["compile", "t.pins", "-po", "t.bench"]
  exact ⟨hprinted, hcode, hunchanged hfailed⟩

end VoxelLogic
