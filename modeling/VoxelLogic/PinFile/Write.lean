import VoxelLogic.Circuit.Basic
import VoxelLogic.Formula.Render
import VoxelLogic.Formula.SumOfProducts

/-!
# Writing pin files

A circuit is written with one line for each pin, inputs first and in their order.  A formula is
written as it is; any other behaviour is written as a sum of products, which takes its value at
every assignment.
-/

namespace VoxelLogic.PinFile

/-- What stands in the brackets of a declaration.  The code of power is left out. -/
def declarationText (position : Position) (type : PinType) : String :=
  if type.isPower then position.token else s!"{position.token}, {type.code.toNat}"

/-- The line of an input. -/
def inputLine (pin : InputPin) : String := s!"INPUT({declarationText pin.position pin.type})"

/-- The formula that describes a behaviour to the reader of a file, if the behaviour has a value at
every assignment or is given by a formula. -/
def writtenFormula? (inputs : Nat) (behaviour : Behaviour) : Option Formula :=
  match behaviour.formula? with
  | some f => some f
  | none => Formula.sumOfProducts? inputs behaviour.value?

/-- The line of an output over named inputs. -/
def outputLine? (names : List String) (pin : OutputPin) : Option String :=
  (writtenFormula? names.length pin.behaviour).map fun f =>
    s!"OUTPUT({declarationText pin.position pin.type}) = {f.render names}"

/-- The lines of the file of a circuit. -/
def fileLines? (c : Circuit) : Option (List String) :=
  (c.outputs.mapM (outputLine? (c.inputPositions.map Position.token))).map fun outputLines =>
    ["# .pins file", "# Generated by voxtable"] ++ c.inputs.map inputLine ++ [""] ++ outputLines

/-- The file of a circuit, if all of its outputs can be described. -/
def write? (c : Circuit) : Option String :=
  (fileLines? c).map fun fileLines => String.join (fileLines.map (· ++ "\n"))

end VoxelLogic.PinFile
