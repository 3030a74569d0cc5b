import VoxelLogic.Json.Layout
import VoxelLogic.Record.Field

/-!
# Writing records

A record is written as a JSON object with its five fields in their order.
-/

namespace VoxelLogic.Record

open Json

/-- An array of numbers. -/
def numbersText (depth : Nat) (numbers : List Nat) : String :=
  arrayText depth (numbers.map toString)

/-- The value of a field. -/
def fieldValue (r : Record) : Field → String
  | .inputRemap => numbersText 1 (r.inputRemap.map UInt32.toNat)
  | .outputRemap => numbersText 1 (r.outputRemap.map UInt32.toNat)
  | .inputTypes => numbersText 1 (r.inputTypes.map UInt8.toNat)
  | .outputTypes => numbersText 1 (r.outputTypes.map UInt8.toNat)
  | .groups =>
    arrayText 1 (r.groups.map fun group => numbersText 2 (group.map fun row => row.toNat))

/-- The text of a record. -/
def toJson (r : Record) : String :=
  objectText 0 (Field.all.map fun f => (f.name, r.fieldValue f))

end VoxelLogic.Record
