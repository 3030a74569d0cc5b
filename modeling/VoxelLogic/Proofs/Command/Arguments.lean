import VoxelLogic.Command.Run
import VoxelLogic.Proofs.Success

/-!
# What arguments ask for

Options leave the files alone that have been collected, and an argument that starts with a dash is
an option unless it is the dash alone.  So arguments that ask for the compilation of a file name the
file as it is.

* `Collected.Keeps`: what taking an option can end in.
* `keeps_add`, `keeps_addShort`, `keeps_addLong`, `keeps_addPending`: the ways of taking one.
* `Collected.TakesFile`: a first argument that is the file to work on.
* `ofArguments_decode`, `ofArguments_compile_print`: what requests to print a table ask for.
* `command_of_ofArguments_compile`, `ofArguments_compile_of_run`: what requests to compile a file
  ask for.
-/

namespace VoxelLogic.Request

namespace Collected

variable {c : Collected} {task : Task} {files : List String}

/-- Taking an argument has left the files alone, or it has ended in help or misuse. -/
def Keeps (files : List String) (result : Except Request Collected) : Prop :=
  match result with
  | .ok c => c.files = files
  | .error request => request = .help ∨ request = .misuse

theorem keeps_bind {result : Except Request Collected} (h : Keeps files result)
    {next : Collected → Except Request Collected}
    (hnext : ∀ c, c.files = files → Keeps files (next c)) : Keeps files (result.bind next) := by
  cases result with
  | error request => exact h
  | ok c => exact hnext c h

theorem keeps_add (c : Collected) (switch : Switch) (value : String) :
    Keeps c.files (c.add switch value) := by
  rw [add]
  split
  · exact Or.inr rfl
  · exact rfl

theorem keeps_addPending (c : Collected) (switch : Switch) (argument : String) :
    Keeps c.files (c.addPending switch argument) := by
  rw [addPending]
  split
  · exact Or.inr rfl
  · exact keeps_add c switch argument

theorem keeps_addLong (c : Collected) (task : Task) (name : String) (value : Option String) :
    Keeps c.files (c.addLong task name value) := by
  rw [addLong]
  split
  · exact Or.inr rfl
  · split
    · exact keeps_add c _ _
    · exact rfl
    · exact Or.inr rfl
    · split
      · exact Or.inl rfl
      · exact keeps_add c _ _

/-- The induction is on the letters of the argument, each of which may be an option. -/
theorem keeps_addShort (c : Collected) (task : Task) (letters : List Char) :
    Keeps c.files (c.addShort task letters) := by
  induction letters generalizing c with
  | nil => exact rfl
  | cons letter rest ih =>
    rw [addShort]
    split
    · exact Or.inr rfl
    · split
      · exact Or.inl rfl
      · split
        · split
          · exact rfl
          · exact keeps_add c _ _
          · exact keeps_add c _ _
        · refine keeps_bind (keeps_add c _ _) fun d hd => ?_
          rw [← hd]
          exact ih d

/-- An argument is an option or a file. -/
theorem keeps_addArgument (c : Collected) (task : Task) (argument : String) :
    Keeps c.files (c.addArgument task argument) ∨
      c.addArgument task argument = c.addFile task argument := by
  rw [addArgument]
  split
  · split
    · exact Or.inl (keeps_addLong c task _ _)
    · exact Or.inl (keeps_addLong c task _ _)
  · exact Or.inl (keeps_addShort c task _)
  · exact Or.inr rfl

/-- At the end of the arguments the files are left alone. -/
theorem keeps_addAll_nil (c : Collected) (task : Task) : Keeps c.files (c.addAll task []) := by
  rw [addAll]
  split
  · exact Or.inr rfl
  · exact rfl

/-- The option for the file to be written leaves the files alone, and so does its value. -/
theorem keeps_addAll_output (c : Collected) (output : String) :
    Keeps c.files (c.addAll .compile ["-o", output]) := by
  have hend : ∀ d : Collected, d.files = c.files → Keeps c.files (d.addAll .compile []) :=
    fun d hd => hd ▸ keeps_addAll_nil d .compile
  cases hpending : c.pending with
  | some switch =>
    rw [addAll, hpending]
    exact Or.inr rfl
  | none =>
    have hpair : c.addAll .compile ["-o", output] =
        ({ c with pending := some .output }.addPending .output output).bind
          fun d => d.addAll .compile [] := by
      rw [addAll, hpending]
      rfl
    rw [hpair]
    exact keeps_bind (keeps_addPending { c with pending := some .output } _ _) hend

end Collected

open Collected

section File

variable {task : Task} {file : String}

/-- An argument that does not start with a dash is a file. -/
theorem Collected.addArgument_eq_addFile (c : Collected) (hdash : file.toList.head? ≠ some '-') :
    c.addArgument task file = c.addFile task file := by
  rw [addArgument]
  split
  · next htext =>
    rw [htext] at hdash
    exact absurd rfl hdash
  · next htext =>
    rw [htext] at hdash
    exact absurd rfl hdash
  · rfl

/-- A task that works on one file takes one. -/
theorem Collected.addFile_empty (hcount : task.fileCount = 1) (hempty : file ≠ "") :
    Collected.empty.addFile task file = .ok ⟨[file], [], none⟩ := by
  rw [addFile, if_neg]
  · rfl
  · rintro (hfile | hle)
    · exact hempty hfile
    · rw [hcount] at hle
      exact absurd hle (by decide)

/-- A task takes the first argument as its file. -/
structure Collected.TakesFile (task : Task) (file : String) : Prop where
  ne_dashes : file ≠ "--"
  addArgument_eq : Collected.empty.addArgument task file = .ok ⟨[file], [], none⟩

/-- The first argument ends the options or is taken by itself. -/
theorem Collected.addAll_empty_cons (task : Task) (argument : String) (arguments : List String) :
    Collected.empty.addAll task (argument :: arguments) =
      if argument = "--" then Collected.empty.addFiles task arguments
      else (Collected.empty.addArgument task argument).bind fun c => c.addAll task arguments := by
  rw [addAll]
  rfl

/-- With the file there are the other arguments left to be taken. -/
theorem Collected.TakesFile.addAll_cons (h : TakesFile task file) (arguments : List String) :
    Collected.empty.addAll task (file :: arguments) =
      Collected.addAll ⟨[file], [], none⟩ task arguments := by
  rw [addAll_empty_cons, if_neg h.ne_dashes, h.addArgument_eq]
  rfl

/-- A task that works on one file takes it from the first argument. -/
theorem Collected.addAll_file (hcount : task.fileCount = 1) (hempty : file ≠ "")
    (hdash : file.toList.head? ≠ some '-') (arguments : List String) :
    Collected.empty.addAll task (file :: arguments) =
      Collected.addAll ⟨[file], [], none⟩ task arguments := by
  have hdashes : file ≠ "--" := by
    rintro rfl
    exact hdash rfl
  have hadd : Collected.empty.addArgument task file = .ok ⟨[file], [], none⟩ := by
    rw [addArgument_eq_addFile _ hdash, addFile_empty hcount hempty]
  exact TakesFile.addAll_cons ⟨hdashes, hadd⟩ arguments

/-- Arguments that ask for a file to be decoded. -/
theorem ofArguments_decode (hempty : file ≠ "") (hdash : file.toList.head? ≠ some '-') :
    ofArguments ["decode", file] = .run (.decode file none) := by
  show ofTask .decode [file] = _
  rw [ofTask, addAll_file rfl hempty hdash]
  rfl

/-- Arguments that ask for a file to be compiled and its truth table to be printed. -/
theorem ofArguments_compile_print (hempty : file ≠ "") (hdash : file.toList.head? ≠ some '-') :
    ofArguments ["compile", file, "--print"] = .run (.compile file true none) := by
  show ofTask .compile [file, "--print"] = _
  rw [ofTask, addAll_file rfl hempty hdash]
  rfl

end File

/-- Without a file there is nothing to compile. -/
theorem ofTask_compile_of_keeps {arguments : List String}
    (h : Keeps [] (Collected.empty.addAll .compile arguments)) (command : Command) :
    ofTask .compile arguments ≠ .run command := by
  rw [ofTask]
  split
  · next request hrequest =>
    rw [hrequest] at h
    rcases h with rfl | rfl <;> exact fun heq => nomatch heq
  · next c hc =>
    rw [hc] at h
    have hnone : c.command? .compile = none := by
      obtain ⟨files, options, pending⟩ := c
      obtain rfl : files = [] := h
      rfl
    rw [hnone]
    exact fun heq => nomatch heq

/-- With a file and the option for the file to be written there is something to compile. -/
theorem ofTask_compile_file {file output : String} {command : Command}
    (h : ofTask .compile [file, "-o", output] = .run command)
    (hfile : Collected.empty.addAll .compile [file, "-o", output] =
      Collected.addAll ⟨[file], [], none⟩ .compile ["-o", output]) :
    command = .compile file false (some output) := by
  have hpair : Collected.addAll ⟨[file], [], none⟩ .compile ["-o", output] =
      (addPending ⟨[file], [], some .output⟩ .output output).bind fun d =>
        d.addAll .compile [] := rfl
  rw [ofTask, hfile, hpair, addPending] at h
  split at h
  · next request hrequest =>
    split at hrequest
    · cases hrequest
      cases h
    · rw [add] at hrequest
      split at hrequest
      · cases hrequest
        cases h
      · cases hrequest
  · next c hc =>
    split at hc
    · cases hc
    · rw [add] at hc
      split at hc
      · cases hc
      · cases hc
        cases h
        rfl

/-- If there is something to compile and the arguments behind the first one name no file, then the
first one does. -/
theorem takesFile_of_ofTask_compile {file : String} {arguments : List String} {command : Command}
    (h : ofTask .compile (file :: arguments) = .run command)
    (hfiles : Keeps [] (Collected.empty.addFiles .compile arguments))
    (hmore : ∀ c : Collected, c.files = [] → Keeps [] (c.addAll .compile arguments)) :
    TakesFile .compile file := by
  have hfirst := Collected.addAll_empty_cons .compile file arguments
  by_cases hdashes : file = "--"
  · rw [if_pos hdashes] at hfirst
    rw [← hfirst] at hfiles
    exact absurd h (ofTask_compile_of_keeps hfiles command)
  · rw [if_neg hdashes] at hfirst
    rcases keeps_addArgument Collected.empty .compile file with hkeeps | hadd
    · have hnone := keeps_bind hkeeps hmore
      rw [← hfirst] at hnone
      exact absurd h (ofTask_compile_of_keeps hnone command)
    · have hempty : file ≠ "" := by
        rintro rfl
        cases h
      exact ⟨hdashes, hadd.trans (Collected.addFile_empty rfl hempty)⟩

/-- Arguments that ask for the compilation of a file into another one name both as they are. -/
theorem command_of_ofArguments_compile {file output : String} {command : Command}
    (h : ofArguments ["compile", file, "-o", output] = .run command) :
    command = .compile file false (some output) := by
  have htask : ofTask .compile [file, "-o", output] = .run command := h
  have htwo : Collected.empty.addFiles .compile ["-o", output] = .error .misuse := by
    have hsecond : addFile ⟨["-o"], [], none⟩ .compile output = .error .misuse := by
      rw [addFile, if_pos (Or.inr (by decide))]
    show (addFile ⟨["-o"], [], none⟩ .compile output).bind _ = _
    rw [hsecond]
    rfl
  have hfile : TakesFile .compile file := by
    refine takesFile_of_ofTask_compile htask ?_ fun c hc => hc ▸ keeps_addAll_output c output
    rw [htwo]
    exact Or.inr rfl
  exact ofTask_compile_file htask (hfile.addAll_cons _)

/-- Arguments that ask for the compilation of a file alone name it as it is, and with the option for
it they ask for its truth table. -/
theorem ofArguments_compile_of_run {file : String} {command : Command}
    (h : ofArguments ["compile", file] = .run command) :
    command = .compile file false none ∧
      ofArguments ["compile", file, "--print"] = .run (.compile file true none) := by
  have htask : ofTask .compile [file] = .run command := h
  have hfile : TakesFile .compile file :=
    takesFile_of_ofTask_compile htask rfl fun c hc => hc ▸ keeps_addAll_nil c .compile
  constructor
  · rw [ofTask, hfile.addAll_cons] at htask
    cases htask
    rfl
  · show ofTask .compile [file, "--print"] = _
    rw [ofTask, hfile.addAll_cons]
    rfl

end VoxelLogic.Request
