import VoxelLogic.Formula.Value

/-!
# Sums of products

A function that is known by its values alone is written as a disjunction with one conjunction for
each assignment at which it is true.  The conjunction for an assignment names every input, negated
where the assignment makes it false.
-/

namespace VoxelLogic.Formula

/-- An input or its negation, true where the input has the value. -/
def literal (place : Nat) (value : Bool) : Formula :=
  if value then input place else not (input place)

/-- The formula that is true at one assignment only. -/
def minterm (a : Assignment) : Formula :=
  match a with
  | [] => const true
  | _ :: _ => gate .and (a.mapIdx literal)

/-- The formula that is true where one of some formulas is. -/
def sum : List Formula → Formula
  | [] => const false
  | [e] => e
  | es => gate .or es

/-- The assignments at which a function is true, in the order of their rows, if the function has a
value at each assignment. -/
def trueAssignments? (inputs : Nat) (f : Assignment → Option Bool) : Option (List Assignment) :=
  (Assignment.tabulate? inputs fun a => (f a).map (Prod.mk a)).map fun values =>
    (values.filter Prod.snd).map Prod.fst

/-- A function of a number of inputs as a sum of products, if it has a value at each assignment. -/
def sumOfProducts? (inputs : Nat) (f : Assignment → Option Bool) : Option Formula :=
  (trueAssignments? inputs f).map fun trues => sum (trues.map minterm)

end VoxelLogic.Formula
