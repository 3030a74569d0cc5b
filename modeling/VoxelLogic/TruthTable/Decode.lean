import VoxelLogic.Circuit.Tabulate

/-!
# Decoding packed tables

A packed table is decoded with the number of inputs and the number of outputs that it is meant for.
It must have one row for each assignment, and no row may have a bit above its outputs; of several
such rows the first is reported.  Sentinel bits are dropped.

* `decodeEntries`: the entries of a packed table.
* `TruthTable`: entries under named columns, from a circuit (`TruthTable.ofCircuit?`) or from a
  packed table (`TruthTable.decode`).
-/

namespace VoxelLogic

/-- The first row of a table that does not fit a number of outputs, with its place. -/
def firstTooWide? (outputs : Nat) (table : PackedTable) : Option (PackedRow × Nat) :=
  table.zipIdx.find? fun (row, _) => !row.fits outputs

/-- Refuses a table that is not meant for a number of inputs and a number of outputs. -/
def checkTable (inputs outputs : Nat) (table : PackedTable) : Except Error Unit :=
  if table.length = Assignment.count inputs then
    match firstTooWide? outputs table with
    | none => .ok ()
    | some (row, place) => .error (.rowWidth place row (PackedRow.width outputs))
  else .error (.tableSize (Assignment.count inputs) table.length)

/-- The entries of a packed table. -/
def decodeEntries (inputs outputs : Nat) (table : PackedTable) : Except Error (List Entry) :=
  (checkTable inputs outputs table).map fun _ =>
    table.mapIdx fun i row => ⟨Assignment.ofIndex inputs i, row.unpack outputs⟩

/-- A truth table with a named column for each pin. -/
structure TruthTable where
  inputs : List Position
  outputs : List Position
  entries : List Entry
  deriving DecidableEq, Repr

namespace TruthTable

/-- The truth table of a circuit, if it can be tabulated. -/
def ofCircuit? (c : Circuit) : Option TruthTable :=
  c.entries?.map fun entries => ⟨c.inputPositions, c.outputPositions, entries⟩

/-- The truth table that a packed table holds for the pins of a circuit. -/
def decode (c : Circuit) (table : PackedTable) : Except Error TruthTable :=
  (decodeEntries c.inputs.length c.outputs.length table).map fun entries =>
    ⟨c.inputPositions, c.outputPositions, entries⟩

end TruthTable

end VoxelLogic
