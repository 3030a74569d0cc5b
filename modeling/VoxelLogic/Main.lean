import VoxelLogic.Command.Run

/-!
# The command line program

Reads the file that a command works on, runs the command, prints what it prints and writes what it
writes.  All decisions are those of `Command.runArguments`.
-/

namespace VoxelLogic

/-- What is found at a path. -/
def findSource (path : String) : IO Source := do
  try
    let bytes ← IO.FS.readBinFile path
    return .content bytes.data.toList
  catch e =>
    match e with
    | .inappropriateType .. => return .folder
    | _ => return .absent

/-- The file that a request reads. -/
def Request.file? : Request → Option String
  | .run (.summarize file) => some file
  | .run (.compile file _ _) => some file
  | .run (.decode file _) => some file
  | _ => none

/-- Writes a file, and returns whether it could be written. -/
def tryWrite (path content : String) : IO Bool := do
  try
    IO.FS.writeFile path content
    return true
  catch _ => return false

end VoxelLogic

open VoxelLogic in
/-- Runs the program. -/
def main (arguments : List String) : IO UInt32 := do
  let source ← match (Request.ofArguments arguments).file? with
    | none => pure Source.absent
    | some file => findSource file
  let outcome := Command.runArguments ⟨fun _ => source, fun _ => true⟩ arguments
  let outcome ← match outcome.written with
    | none => pure outcome
    | some (path, content) =>
      if ← tryWrite path content then pure outcome
      else pure (Command.runArguments ⟨fun _ => source, fun _ => false⟩ arguments)
  IO.print outcome.printed
  IO.eprint outcome.complaint
  return outcome.ending.code.toUInt32
