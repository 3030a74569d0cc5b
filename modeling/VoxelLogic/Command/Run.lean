import VoxelLogic.Circuit.Random
import VoxelLogic.Circuit.Summary
import VoxelLogic.Command.Arguments
import VoxelLogic.Command.Path
import VoxelLogic.Error.Inspect
import VoxelLogic.PinFile.Read
import VoxelLogic.PinFile.Write
import VoxelLogic.Record.Compiled
import VoxelLogic.Record.Read
import VoxelLogic.Record.Write
import VoxelLogic.TruthTable.Layout

/-!
# Running commands

A command reads at most one file, prints a text, and writes at most one file as the last thing it
does.  What it does depends on the files around it only through `Files`, so a run is a function, and
its result is an `Outcome`: the text printed, the file written, and how the run ended.
-/

namespace VoxelLogic

/-! ## Files and outcomes -/

/-- What is found at a path. -/
inductive Source where
  | absent
  | folder
  | content (bytes : List UInt8)

/-- The files around a command. -/
structure Files where
  /-- What is found at a path. -/
  source : String → Source
  /-- Whether a file can be written at a path. -/
  writable : String → Bool

/-- How a run ended. -/
inductive Ending where
  | success
  | help
  | failure (error : Error)
  | misuse
  /-- Some output had no value where one was needed. -/
  | undefined
  /-- There was no memory for something that a file asks for. -/
  | exhausted

/-- The exit code of an ending. -/
def Ending.code : Ending → UInt8
  | success => 0
  | help => 0
  | failure _ => 1
  | misuse => 2
  | undefined => 101
  | exhausted => 101

/-- The ending that an error brings about. -/
def Ending.ofError (e : Error) : Ending := if e.isAbrupt then exhausted else failure e

/-- The result of a run. -/
structure Outcome where
  printed : String
  /-- The path of a file with its new content. -/
  written : Option (String × String)
  ending : Ending

namespace Outcome

/-- A run that changes no file. -/
def ended (printed : String) (ending : Ending) : Outcome := ⟨printed, none, ending⟩

/-- The text that reports a failure. -/
def complaint (o : Outcome) : String :=
  match o.ending with
  | .failure e => e.report
  | _ => ""

end Outcome

namespace Command

/-! ## Reading -/

/-- The record in a file. -/
def readRecord (files : Files) (path : String) : Except Error Record :=
  match files.source path with
  | .absent => .error .unreadable
  | .folder => .error (.json .unreadable)
  | .content bytes =>
    match Record.ofJson bytes with
    | .error fault => .error (.json fault)
    | .ok record => .ok record

/-- The circuit in a pin file. -/
def readPins (files : Files) (path : String) : Except Error Circuit :=
  match files.source path with
  | .absent => .error .unreadable
  | .folder => .error .unreadable
  | .content bytes => PinFile.read bytes

/-- The circuit in a file whose extension tells its format. -/
def readCircuit (files : Files) (path : String) : Except Error Circuit :=
  match Path.extension? path with
  | none => .error (.unknownExtension "")
  | some extension =>
    if extension = "pins" then readPins files path
    else if extension = "json" then (readRecord files path).bind Record.circuit
    else .error (.unknownExtension extension)

/-! ## Writing -/

/-- The text of a circuit in the format that the extension of a path tells.  There is none if the
circuit cannot be described. -/
def circuitText (path : String) (c : Circuit) : Except Error (Option String) :=
  match Path.extension? path with
  | none => .error (.unknownExtension "")
  | some extension =>
    if extension = "pins" then .ok (PinFile.write? c) else .error (.unknownExtension extension)

/-- The text of a compiled circuit in the format that the extension of a path tells. -/
def compiledText (path : String) (c : Circuit) (table : PackedTable) :
    Except Error (Option String) :=
  if Path.extension? path = some "json" then
    (Record.ofTable c table).map fun record => some record.toJson
  else circuitText path c

/-- Ends a run with writing a file, if one is asked for. -/
def finish (files : Files) (printed : String) (output : Option String)
    (text : String → Except Error (Option String)) : Outcome :=
  match output with
  | none => .ended printed .success
  | some path =>
    match text path with
    | .error e => .ended printed (.ofError e)
    | .ok content =>
      if files.writable path then
        match content with
        | none => .ended printed .undefined
        | some content => ⟨printed, some (path, content), .success⟩
      else .ended printed (.failure .unreadable)

/-! ## Tasks -/

/-- The packed rows of a table, one to a line. -/
def packedText (table : PackedTable) (outputs : Nat) : String :=
  String.join (table.mapIdx fun i row =>
    s!"{i}: {PackedRow.binary row (PackedRow.width outputs)}\n")

/-- The truth table of a circuit, or its packed rows. -/
def tableText? (c : Circuit) (table : PackedTable) (print : Bool) : Option String :=
  if print then (TruthTable.ofCircuit? c).map TruthTable.render
  else some (packedText table c.outputs.length)

/-- Prints a summary of a circuit. -/
def runSummarize (files : Files) (file : String) : Outcome :=
  match readCircuit files file with
  | .error e => .ended "" (.ofError e)
  | .ok c =>
    match c.check with
    | .error e => .ended "" (.ofError e)
    | .ok () =>
      match c.summary? with
      | none => .ended "" .undefined
      | some summary => .ended summary.render .success

/-- Compiles a circuit. -/
def runCompile (files : Files) (file : String) (print : Bool) (output : Option String) : Outcome :=
  match readCircuit files file with
  | .error e => .ended "" (.ofError e)
  | .ok c =>
    match c.check with
    | .error e => .ended "" (.ofError e)
    | .ok () =>
      match c.compile? with
      | none => .ended "" .undefined
      | some table =>
        match tableText? c table print with
        | none => .ended "" .undefined
        | some printed => finish files printed output fun path => compiledText path c table

/-- Decodes a record. -/
def runDecode (files : Files) (file : String) (output : Option String) : Outcome :=
  match readRecord files file with
  | .error e => .ended "" (.ofError e)
  | .ok record =>
    match record.circuit with
    | .error e => .ended "" (.ofError e)
    | .ok c =>
      match TruthTable.decode c record.table with
      | .error e => .ended "" (.ofError e)
      | .ok table => finish files table.render output fun path => circuitText path c

/-- Generates a random circuit. -/
def runGenerate (files : Files) (inputs outputs : Nat) (seed : UInt64) (print : Bool)
    (output : Option String) : Outcome :=
  match Circuit.random? inputs outputs seed with
  | none => .ended "" .undefined
  | some c =>
    match c.compile? with
    | none => .ended "" .undefined
    | some table =>
      match if print then (TruthTable.ofCircuit? c).map TruthTable.render else some "" with
      | none => .ended "" .undefined
      | some printed => finish files printed output fun path => compiledText path c table

/-- Runs a command. -/
def run (files : Files) : Command → Outcome
  | summarize file => runSummarize files file
  | compile file print output => runCompile files file print output
  | decode file output => runDecode files file output
  | generate inputs outputs seed print output => runGenerate files inputs outputs seed print output

/-- How arguments are to be written. -/
def usage : String :=
  "Usage: voxtable show FILE\n" ++
  "       voxtable compile [-p] [-o OUTPUT] FILE\n" ++
  "       voxtable decode [-o OUTPUT] FILE\n" ++
  "       voxtable random [-i INPUTS] [-n OUTPUTS] [--seed SEED] [-p] [-o OUTPUT]\n"

/-- Runs what arguments ask for. -/
def runArguments (files : Files) (arguments : List String) : Outcome :=
  match Request.ofArguments arguments with
  | .run command => command.run files
  | .help => .ended usage .help
  | .misuse => .ended "" .misuse

end Command

end VoxelLogic
