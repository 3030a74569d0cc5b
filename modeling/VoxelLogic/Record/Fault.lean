import VoxelLogic.Position

/-!
# What can be wrong with the shape of a record

A record keeps one entry for each position in each of its arrays.  Two things can be wrong with
their lengths.
-/

namespace VoxelLogic

/-- Which pins of a record are meant. -/
inductive RecordSide where
  | input
  | output
  deriving DecidableEq, Repr

/-- The name of one side of a record in messages. -/
def RecordSide.name : RecordSide → String
  | input => "input"
  | output => "output"

/-- Why the arrays of a record are refused. -/
inductive ShapeFault where
  /-- A remap has more entries than the catalog has positions. -/
  | remapTooLong (side : RecordSide) (entries : Nat)
  /-- A used position has no type. -/
  | typeMissing (side : RecordSide) (place : Nat)
  deriving DecidableEq, Repr

/-- The wording of refused arrays. -/
def ShapeFault.message : ShapeFault → String
  | remapTooLong side entries =>
    s!"{side.name} remap has {entries} entries, the catalog has {Position.count}"
  | typeMissing side place => s!"No {side.name} type for used position {place}"

end VoxelLogic
