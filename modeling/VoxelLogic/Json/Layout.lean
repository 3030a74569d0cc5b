/-!
# Layout of JSON texts

Arrays and objects are written with one member to a line, indented by two spaces more than the line
on which they start.  An array without members is written as two brackets.  The text does not end
with a line feed.
-/

namespace VoxelLogic.Json

/-- The spaces at the start of a line. -/
def indentation (depth : Nat) : String := String.ofList (List.replicate (2 * depth) ' ')

/-- A member of an array or an object on a line of its own. -/
def memberLine (depth : Nat) (member : String) : String := indentation (depth + 1) ++ member

/-- Members between an opening and a closing bracket. -/
def block (opening closing : String) (depth : Nat) (members : List String) : String :=
  opening ++ "\n" ++ String.intercalate ",\n" (members.map (memberLine depth)) ++ "\n" ++
    indentation depth ++ closing

/-- An array on a line of a given depth. -/
def arrayText (depth : Nat) (members : List String) : String :=
  match members with
  | [] => "[]"
  | _ :: _ => block "[" "]" depth members

/-- A member of an object. -/
def fieldText (name value : String) : String := "\"" ++ name ++ "\": " ++ value

/-- An object with at least one member, on a line of a given depth. -/
def objectText (depth : Nat) (fields : List (String × String)) : String :=
  block "\x7b" "\x7d" depth (fields.map fun (name, value) => fieldText name value)

end VoxelLogic.Json
