import VoxelLogic.Record.Basic

/-!
# Fields of a stored record

A record has five fields.  While a record is read, a `Draft` holds the fields that have been met.
-/

namespace VoxelLogic.Record

/-- A field of a record. -/
inductive Field where
  | inputRemap
  | outputRemap
  | inputTypes
  | outputTypes
  | groups
  deriving DecidableEq, Repr

namespace Field

/-- The fields in the order in which they are stored. -/
def all : List Field := [inputRemap, outputRemap, inputTypes, outputTypes, groups]

/-- The name of a field. -/
def name : Field → String
  | inputRemap => "inputRemap"
  | outputRemap => "outputRemap"
  | inputTypes => "input"
  | outputTypes => "output"
  | groups => "bdd"

/-- The field of a name. -/
def ofName? (name : String) : Option Field := all.find? fun f => f.name == name

@[simp] theorem ofName?_name (f : Field) : ofName? f.name = some f := by
  cases f <;> decide

end Field

/-- The fields of a record that have been read. -/
structure Draft where
  inputRemap : Option (List UInt32)
  outputRemap : Option (List UInt32)
  inputTypes : Option (List UInt8)
  outputTypes : Option (List UInt8)
  groups : Option (List (List PackedRow))

namespace Draft

/-- The draft without fields. -/
def empty : Draft := ⟨none, none, none, none, none⟩

/-- Whether a field has been read. -/
def has (d : Draft) : Field → Bool
  | .inputRemap => d.inputRemap.isSome
  | .outputRemap => d.outputRemap.isSome
  | .inputTypes => d.inputTypes.isSome
  | .outputTypes => d.outputTypes.isSome
  | .groups => d.groups.isSome

/-- The record of a draft that has all fields. -/
def record? (d : Draft) : Option Record :=
  match d with
  | ⟨some inputRemap, some outputRemap, some inputTypes, some outputTypes, some groups⟩ =>
    some ⟨inputRemap, outputRemap, inputTypes, outputTypes, groups⟩
  | _ => none

end Draft

end VoxelLogic.Record
