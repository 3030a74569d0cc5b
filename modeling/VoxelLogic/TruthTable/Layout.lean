import VoxelLogic.Text.Column
import VoxelLogic.TruthTable.Decode

/-!
# Layout of truth tables

A truth table is printed as a header, a divider and one line for each entry.  Every cell is three
characters wide; cells are parted by a bar, and a double bar parts the inputs from the outputs.
-/

namespace VoxelLogic.TruthTable

/-- A value in a cell. -/
def bitText (value : Bool) : String := if value then "1" else "0"

/-- The cells of one side of a line. -/
def cells (texts : List String) : String :=
  String.intercalate " | " (texts.map (Text.pad .left 3))

/-- A line of cells. -/
def cellLine (inputs outputs : List String) : String := cells inputs ++ " || " ++ cells outputs

/-- The dashes under one side of the header. -/
def dashes (columns : Nat) : String := String.intercalate "-+-" (List.replicate columns "---")

/-- The line under the header. -/
def divider (inputs outputs : Nat) : String := dashes inputs ++ "-++-" ++ dashes outputs

/-- The line of an entry. -/
def entryLine (e : Entry) : String :=
  cellLine (e.assignment.map bitText) (e.outputs.map bitText)

/-- The table in lines. -/
def lines (t : TruthTable) : List String :=
  cellLine (t.inputs.map Position.token) (t.outputs.map Position.token) ::
    divider t.inputs.length t.outputs.length :: t.entries.map entryLine

/-- The table as a text. -/
def render (t : TruthTable) : String := String.join (t.lines.map (· ++ "\n"))

end VoxelLogic.TruthTable
