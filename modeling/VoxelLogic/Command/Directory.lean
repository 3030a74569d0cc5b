import VoxelLogic.Command.Run

/-!
# A directory

A directory that holds files and no other directories.  A path leads to a file of it if its only
part that means something is the name of the file and no slash follows the name.  A path of dots
leads to a directory, and every other path leads nowhere.

* `Directory.files`: the files that a command sees from the directory.
* `Directory.changes`: the files that an outcome leaves new or changed.
-/

namespace VoxelLogic

/-- Files by name. -/
structure Directory where
  entries : List (String × List UInt8)

namespace Directory

/-- Where a path leads. -/
inductive Place where
  | file (name : String)
  | folder
  | nowhere

/-- Whether a path ends in the name of its last part. -/
def endsInName (path : String) : Bool :=
  match (Path.split path.toList).getLast? with
  | none => false
  | some part => part != [] && part != ['.']

/-- Number of bytes from which a path is too long to lead anywhere. -/
def pathLimit : Nat := 4096

/-- Where a path leads.  A path is shorter than `pathLimit`, however little its parts mean, and a
name has at most 255 bytes and no zero character. -/
def place (path : String) : Place :=
  if pathLimit ≤ path.utf8ByteSize then .nowhere
  else if (Path.parts path).all (· == "..") then .folder
  else
    match path.toList, Path.parts path with
    | '/' :: _, _ => .nowhere
    | _, [name] =>
      if endsInName path && name.utf8ByteSize ≤ 255 && !name.toList.contains '\x00' then .file name
      else .nowhere
    | _, _ => .nowhere

/-- The files that a command sees from the directory. -/
def files (d : Directory) : Files where
  source path :=
    match place path with
    | .folder => .folder
    | .nowhere => .absent
    | .file name =>
      match d.entries.lookup name with
      | none => .absent
      | some bytes => .content bytes
  writable path :=
    match place path with
    | .file _ => true
    | _ => false

/-- The file that an outcome leaves new or changed, with its content. -/
def changes (d : Directory) (o : Outcome) : List (String × String) :=
  match o.written with
  | none => []
  | some (path, content) =>
    match place path with
    | .file name =>
      if d.entries.lookup name = some (Text.encode content) then [] else [(name, content)]
    | _ => []

end Directory

end VoxelLogic
