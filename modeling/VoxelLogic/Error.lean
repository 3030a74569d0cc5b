import VoxelLogic.Json.Fault
import VoxelLogic.PackedRow
import VoxelLogic.Pin
import VoxelLogic.PinFile.Fault
import VoxelLogic.Record.Fault

/-!
# Errors

Everything that can go wrong when circuits are built, read, decoded or written, by its cause, and
the wording of each cause in `Error.message`.
-/

namespace VoxelLogic

/-- Why something was refused. -/
inductive Error where
  /-- A token that is no position. -/
  | unknownPosition (token : String)
  /-- A state slot with a type that does not count as power. -/
  | stateType (position : Position) (type : PinType)
  /-- A position that an earlier pin of the same list has, with the place of the later pin. -/
  | repeatedPosition (position : Position) (place : Nat)
  /-- An output that cannot be used with the inputs of its circuit. -/
  | inputCount (position : Position) (inputs : Nat)
  /-- A table with too few or too many rows. -/
  | tableSize (expected actual : Nat)
  /-- A row with bits above its outputs. -/
  | rowWidth (place : Nat) (row : PackedRow) (width : Nat)
  /-- A record whose arrays have the wrong length. -/
  | recordShape (fault : ShapeFault)
  /-- A line of a pin file, counted from one. -/
  | line (number : Nat) (fault : PinFile.LineFault)
  /-- A file extension that names no format. -/
  | unknownExtension (extension : String)
  /-- A file that cannot be read or written, or a line of it that is not valid UTF-8. -/
  | unreadable
  /-- A text that is no record. -/
  | json (fault : Json.Fault)
  deriving DecidableEq

/-- The wording of an error.  The two that come from outside have none of their own. -/
def Error.message : Error → String
  | unknownPosition token => s!"Unknown position '{token}'"
  | stateType position type =>
    s!"State position {position.token} must have type Power, got {type.name}"
  | repeatedPosition position place =>
    s!"Position {position.token} is used twice (second use at pin {place})"
  | inputCount position inputs =>
    s!"Output {position.token} cannot be evaluated with {inputs} inputs"
  | tableSize expected actual => s!"Table has {actual} rows, expected {expected}"
  | rowWidth place row width =>
    s!"Row {place} (0b{row.binary 0}) does not fit in {width} bits"
  | recordShape fault => s!"Malformed module record: {fault.message}"
  | line number fault => s!"Line {number}: {fault.message}"
  | unknownExtension extension => s!"Unknown extension '{extension}'"
  | unreadable => ""
  | json _ => ""

/-- Whether an error ends the program without a report, for want of memory. -/
def Error.isAbrupt : Error → Bool
  | line _ (.expression (.maskTooLarge _)) => true
  | _ => false

end VoxelLogic
