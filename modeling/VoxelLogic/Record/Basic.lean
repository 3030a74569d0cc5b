import VoxelLogic.TruthTable.Decode

/-!
# Module records

A record is the form in which modules are stored.  It has a remap and a list of type codes for the
inputs and for the outputs, all indexed by the catalog of positions, and a packed table whose rows
come in groups.  A position is used if its entry in the remap is not zero.  Whatever the other
entries are, pins follow the order of the catalog, and so do the bits of the rows.

* `Record.inputs`, `Record.outputs`: the pins that a record describes.
* `Record.table`: its packed table.
* `Record.circuit`: the circuit whose outputs look up the rows of the record.
-/

namespace VoxelLogic

/-- A stored module. -/
structure Record where
  /-- For each position, zero if it carries no input. -/
  inputRemap : List UInt32
  /-- For each position, zero if it carries no output. -/
  outputRemap : List UInt32
  /-- For each position, the type code of its input. -/
  inputTypes : List UInt8
  /-- For each position, the type code of its output. -/
  outputTypes : List UInt8
  /-- The rows of the table, in groups. -/
  groups : List (List PackedRow)
  deriving DecidableEq

namespace Record

/-- The record without entries. -/
def empty : Record := ⟨[], [], [], [], []⟩

/-- The packed table of a record. -/
def table (r : Record) : PackedTable := r.groups.flatten

/-! ## Pins of a record -/

/-- The positions that a remap uses, in the order of the catalog. -/
def usedPositions (remap : List UInt32) : List Position :=
  ((Position.all.zip remap).filter fun (_, order) => order != 0).map Prod.fst

/-- Pairs positions with their type codes, up to the first that has none. -/
def typed (side : RecordSide) (codes : List UInt8) :
    List Position → Except Error (List (Position × PinType))
  | [] => .ok []
  | p :: ps =>
    match codes[p.index]? with
    | none => .error (.recordShape (.typeMissing side p.index))
    | some code => (typed side codes ps).map ((p, PinType.ofCode code) :: ·)

/-- The positions that a remap uses with their types.  A remap may be shorter than the catalog, but
not longer. -/
def typedPositions (side : RecordSide) (remap : List UInt32) (codes : List UInt8) :
    Except Error (List (Position × PinType)) :=
  if remap.length ≤ Position.count then typed side codes (usedPositions remap)
  else .error (.recordShape (.remapTooLong side remap.length))

/-- Makes inputs, up to the first position that does not take its type. -/
def makeInputs : List (Position × PinType) → Except Error (List InputPin)
  | [] => .ok []
  | (p, type) :: rest =>
    match InputPin.make p type with
    | .error e => .error e
    | .ok pin => (makeInputs rest).map (pin :: ·)

/-- Makes outputs that look up their bits in a table, numbered from `k` on, up to the first position
that does not take its type. -/
def makeOutputs (rows : Array PackedRow) (k : Nat) :
    List (Position × PinType) → Except Error (List OutputPin)
  | [] => .ok []
  | (p, type) :: rest =>
    match OutputPin.make p type (.lookUp rows k) with
    | .error e => .error e
    | .ok pin => (makeOutputs rows (k + 1) rest).map (pin :: ·)

/-- The inputs of a record, in the order of the catalog. -/
def inputs (r : Record) : Except Error (List InputPin) :=
  (typedPositions .input r.inputRemap r.inputTypes).bind makeInputs

/-- The outputs of a record with their types, in the order of the catalog. -/
def outputs (r : Record) : Except Error (List (Position × PinType)) :=
  typedPositions .output r.outputRemap r.outputTypes

/-- The circuit whose outputs look up the rows of a record.  The table is checked before the types
of the outputs are. -/
def circuit (r : Record) : Except Error Circuit := do
  let inputs ← r.inputs
  let outputs ← r.outputs
  checkTable inputs.length outputs.length r.table
  let pins ← makeOutputs r.table.toArray 0 outputs
  Circuit.ofPins inputs pins

end Record

end VoxelLogic
