import VoxelLogic.Record.Basic

/-!
# Records of compiled circuits

A circuit may list its pins in any order, but a record follows the catalog.  So the record of a
compiled circuit has its rows, and the bits in each row, in another order than the table of the
circuit: the value that row `j` of the record gives to an input, counted in the catalog, is the
value that the row of the table gives to the same input, counted in the circuit.

* `catalogOrder`: the places of some positions, in the order of the catalog.
* `sourceRow`: the row of the table that a row of the record comes from.
* `gatherOutputs`: the bits of a row in another order.
* `Record.ofTable`: the record of a circuit and a packed table.
-/

namespace VoxelLogic

/-- The places of some positions in their list, in the order of the catalog. -/
def catalogOrder (positions : List Position) : List Nat :=
  Position.all.filterMap fun p => positions.idxOf? p

/-- Gives the input at place `order[s]` the value that `a` gives to input `s`. -/
def Assignment.scatter (order : List Nat) (a : Assignment) : Assignment :=
  (List.range order.length).map fun k => a[order.idxOf k]?.getD false

/-- The row of a circuit's table that row `row` of a record in the order `order` comes from. -/
def sourceRow (order : List Nat) (row : Nat) : Nat :=
  ((Assignment.ofIndex order.length row).scatter order).index

/-- The row whose output `t` is output `order[t]` of another row. -/
def gatherOutputs (order : List Nat) (row : PackedRow) : PackedRow :=
  PackedRow.pack (order.map row.output)

namespace Record

/-- Numbers the used positions from one on, in the order of the catalog. -/
def remapOf (positions : List Position) : List UInt32 :=
  Position.all.map fun p =>
    if p ∈ positions then UInt32.ofNat (positions.countP fun q => q.index ≤ p.index) else 0

/-- The type codes of some pins, zero where there is none. -/
def codesOf (pins : List (Position × PinType)) : List UInt8 :=
  Position.all.map fun p => ((pins.lookup p).map PinType.code).getD 0

/-- The rows of a table in the order of the catalog. -/
def rowsOf (inputOrder outputOrder : List Nat) (table : PackedTable) : List PackedRow :=
  let rows := table.toArray
  (List.range table.length).map fun row =>
    gatherOutputs outputOrder (rows[sourceRow inputOrder row]?.getD 0)

/-- The record of a circuit with a packed table, in one group.  Sentinel bits are cleared. -/
def ofTable (c : Circuit) (table : PackedTable) : Except Error Record :=
  (checkTable c.inputs.length c.outputs.length table).map fun _ =>
    { inputRemap := remapOf c.inputPositions
      outputRemap := remapOf c.outputPositions
      inputTypes := codesOf (c.inputs.map fun pin => (pin.position, pin.type))
      outputTypes := codesOf (c.outputs.map fun pin => (pin.position, pin.type))
      groups := [rowsOf (catalogOrder c.inputPositions) (catalogOrder c.outputPositions) table] }

end Record

end VoxelLogic
