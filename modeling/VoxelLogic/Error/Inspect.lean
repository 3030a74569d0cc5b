import VoxelLogic.Error
import VoxelLogic.Text.Quoted

/-!
# Errors with their parts

Where an error ends a command it is shown by the name of its cause and the parts of the cause, texts
in quotes.  An error that comes from outside is shown by its name alone.
-/

namespace VoxelLogic.Error

open Text

/-- The name of a cause. -/
def kind : Error → String
  | unknownPosition _ => "UnknownPosition"
  | stateType .. => "InvalidStateType"
  | repeatedPosition .. => "DuplicatePosition"
  | inputCount .. => "InputCountMismatch"
  | tableSize .. => "TableSizeMismatch"
  | rowWidth .. => "RowWidthOverflow"
  | recordShape _ => "RecordShape"
  | line .. => "Parse"
  | unknownExtension _ => "UnknownExtension"
  | unreadable => "Io"
  | json _ => "Json"

/-- The parts of a cause between brackets or braces. -/
def parts : Error → String
  | unknownPosition token => s!"({quoted token})"
  | stateType position type =>
    s!" \x7b position: {position.token}, ty: {quoted type.name} \x7d"
  | repeatedPosition position place =>
    s!" \x7b position: {position.token}, index: {place} \x7d"
  | inputCount position inputs =>
    s!" \x7b position: {position.token}, nb_inputs: {inputs} \x7d"
  | tableSize expected actual => s!" \x7b expected: {expected}, actual: {actual} \x7d"
  | rowWidth place row width =>
    s!" \x7b index: {place}, row: {row.toNat}, width: {width} \x7d"
  | recordShape fault => s!"({quoted fault.message})"
  | line number fault => s!" \x7b line: {number}, message: {quoted fault.message} \x7d"
  | unknownExtension extension => s!"({quoted extension})"
  | unreadable => ""
  | json _ => ""

/-- Whether an error comes from outside, from a file or a text that is no record. -/
def isForeign : Error → Bool
  | unreadable => true
  | json _ => true
  | _ => false

/-- The line that reports an error.  One that comes from outside does not end its line, since
whoever reports it adds what is known about it. -/
def report (e : Error) : String :=
  s!"Error: {e.kind}{e.parts}" ++ if e.isForeign then "" else "\n"

end VoxelLogic.Error
