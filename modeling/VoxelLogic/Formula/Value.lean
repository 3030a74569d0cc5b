import VoxelLogic.Assignment
import VoxelLogic.Formula.Basic

/-!
# Values of formulas

A formula is evaluated at an assignment, which may be too short for it.  Reading an input that the
assignment does not have leaves the formula without a value, and so does an argument without a
value, if it is asked for: a conjunction asks for its arguments in order up to the first false one,
a disjunction up to the first true one, a multiplexer for the choice that its selector makes, and
every other gate for all of its arguments.  A look-up table can have more arguments than its mask
has been made for.  It has no value where they choose a bit that the mask does not have.

* `combination`: the number that the arguments of a look-up table choose (`combination_lt`).
* `Mask.lookUp?`: the bit of a mask that values choose.
* `Formula.value?`: the value of a formula.
* `Formula.conjunction?`, `Formula.disjunction?`, `Formula.allValues?`: the three ways of asking for
  arguments.
-/

namespace VoxelLogic

/-- Whether an odd number of values are true. -/
def parity (vs : List Bool) : Bool := vs.foldl Bool.xor false

/-- Whether at least two of three values are true. -/
def atLeastTwo (x y z : Bool) : Bool := (x && y) || (x && z) || (y && z)

/-- The number whose binary digits are the values, the first value least significant. -/
def combination : List Bool → Nat
  | [] => 0
  | v :: vs => v.toNat + 2 * combination vs

/-- The number that values choose has no more binary digits than there are values. -/
theorem combination_lt (vs : List Bool) : combination vs < Nat.pow 2 vs.length := by
  induction vs with
  | nil => exact Nat.one_pos
  | cons v vs ih =>
    have hdigit := Bool.toNat_le v
    have hpow : Nat.pow 2 (v :: vs).length = Nat.pow 2 vs.length * 2 := rfl
    rw [combination, hpow]
    omega

/-- The bit of a mask that values choose, if the mask has it.  The values are put together in a word
of 64 bits, in which there is no place for more of them. -/
def Mask.lookUp? (mask : Mask) (vs : List Bool) : Option Bool :=
  if vs.length ≤ 64 then mask.bit? (combination vs) else none

namespace Formula

mutual

/-- The value of a formula at an assignment. -/
def value? (a : Assignment) : Formula → Option Bool
  | const b => some b
  | input i => a[i]?
  | not e => (value? a e).map Bool.not
  | gate .and es => conjunction? a es
  | gate .or es => disjunction? a es
  | gate .nand es => (conjunction? a es).map Bool.not
  | gate .nor es => (disjunction? a es).map Bool.not
  | gate .xor es => (allValues? a es).map parity
  | gate .xnor es => (allValues? a es).map fun values => !parity values
  | mux s x y =>
    match value? a s with
    | none => none
    | some true => value? a x
    | some false => value? a y
  | majority x y z =>
    match value? a x, value? a y, value? a z with
    | some x, some y, some z => some (atLeastTwo x y z)
    | _, _, _ => none
  | lookUp mask es => (allValues? a es).bind mask.lookUp?

/-- Asks for arguments up to the first false one; true if there is none. -/
def conjunction? (a : Assignment) : List Formula → Option Bool
  | [] => some true
  | e :: es =>
    match value? a e with
    | none => none
    | some false => some false
    | some true => conjunction? a es

/-- Asks for arguments up to the first true one; false if there is none. -/
def disjunction? (a : Assignment) : List Formula → Option Bool
  | [] => some false
  | e :: es =>
    match value? a e with
    | none => none
    | some true => some true
    | some false => disjunction? a es

/-- Asks for all arguments. -/
def allValues? (a : Assignment) : List Formula → Option (List Bool)
  | [] => some []
  | e :: es =>
    match value? a e with
    | none => none
    | some v => (allValues? a es).map (v :: ·)

end

end Formula

end VoxelLogic
