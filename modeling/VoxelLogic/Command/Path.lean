/-!
# Paths

A path is cut at its slashes.  Empty parts and single dots mean nothing, so the extension of a path
is that of its last other part: what follows the last dot of it, unless that dot is the first
character.  Two dots have no extension.
-/

namespace VoxelLogic.Path

/-- The characters between slashes. -/
def split : List Char → List (List Char)
  | [] => [[]]
  | c :: cs =>
    if c = '/' then [] :: split cs
    else
      match split cs with
      | [] => [[c]]
      | part :: parts => (c :: part) :: parts

/-- The parts of a path that mean something. -/
def parts (path : String) : List String :=
  ((split path.toList).map String.ofList).filter fun part => part != "" && part != "."

/-- The extension of a name. -/
def extensionOfName? (name : String) : Option String :=
  if name = ".." then none
  else
    match name.toList.reverse.dropWhile (· != '.') with
    | _ :: _ :: _ => some (String.ofList (name.toList.reverse.takeWhile (· != '.')).reverse)
    | _ => none

/-- The extension of a path. -/
def extension? (path : String) : Option String := (parts path).getLast?.bind extensionOfName?

end VoxelLogic.Path
