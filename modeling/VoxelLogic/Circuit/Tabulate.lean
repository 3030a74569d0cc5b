import VoxelLogic.Circuit.Basic

/-!
# Tabulating a circuit

The truth table of a circuit has one entry for each assignment.  Compiling a circuit stores the
outputs of each entry in a packed row.

* `Circuit.entries?`: the entries in the order of the assignments.
* `Circuit.compile?`: the packed table.

Both are `none` if some output has no value at some assignment, which `Circuit.check` finds out
beforehand.
-/

namespace VoxelLogic

/-- One row of a truth table: an assignment and the outputs there. -/
structure Entry where
  assignment : Assignment
  outputs : List Bool
  deriving DecidableEq, Repr

namespace Circuit

/-- The entry of a circuit at an assignment. -/
def entry? (c : Circuit) (a : Assignment) : Option Entry := (c.values? a).map (Entry.mk a)

/-- The entries of the truth table of a circuit. -/
def entries? (c : Circuit) : Option (List Entry) :=
  Assignment.tabulate? c.inputs.length c.entry?

/-- The packed truth table of a circuit. -/
def compile? (c : Circuit) : Option PackedTable :=
  c.entries?.map fun entries => entries.map fun e => PackedRow.pack e.outputs

end Circuit

end VoxelLogic
