import VoxelLogic.Formula.Mask
import VoxelLogic.Text.Capitals

/-!
# Formulas

The function of an output is given by a formula over the inputs of the circuit, which are named by
their place in the list of inputs.

* `Connective`: the six gates that take any number of arguments, with their keywords
  (`Connective.ofKeyword?_keyword`).
* `Formula`: gates of any nesting.
* `Formula.arguments`: the formulas directly below a formula.
* `Formula.largestInput?`: the largest input that occurs in a formula, and `Formula.accepts`,
  whether a circuit has enough inputs for it.
* `Formula.masksFit`: every look-up table has as many arguments as its mask has been made for.
-/

namespace VoxelLogic

/-- A gate that takes any number of arguments. -/
inductive Connective where
  | and
  | or
  | nand
  | nor
  | xor
  | xnor
  deriving DecidableEq, Repr

namespace Connective

/-- All connectives, in the order in which a random choice counts them. -/
def all : List Connective := [and, or, nand, nor, xor, xnor]

/-- The keyword of a connective. -/
def keyword : Connective → String
  | and => "AND"
  | or => "OR"
  | nand => "NAND"
  | nor => "NOR"
  | xor => "XOR"
  | xnor => "XNOR"

/-- Reads a keyword in any letter case.  The keywords are ASCII, and so is every text that any
case mapping turns into one of them. -/
def ofKeyword? (text : String) : Option Connective :=
  all.find? fun c => c.keyword == Text.capitals text

theorem mem_all (c : Connective) : c ∈ all := by
  cases c <;> decide

@[simp] theorem ofKeyword?_keyword (c : Connective) : ofKeyword? c.keyword = some c := by
  cases c <;> decide

end Connective

/-- A gate formula over the inputs of a circuit. -/
inductive Formula where
  /-- A fixed value. -/
  | const (value : Bool)
  /-- The value of the input at a place of the list of inputs. -/
  | input (place : Nat)
  /-- The opposite value. -/
  | not (argument : Formula)
  /-- A gate of any number of arguments. -/
  | gate (connective : Connective) (arguments : List Formula)
  /-- The first choice if the selector is true, else the second. -/
  | mux (selector whenTrue whenFalse : Formula)
  /-- The value that at least two of the three arguments have. -/
  | majority (first second third : Formula)
  /-- The bit of the mask whose number has the arguments as its binary digits, the first argument
  least significant.  The mask may have been made for another number of arguments. -/
  | lookUp (mask : Mask) (arguments : List Formula)
  deriving Repr

namespace Formula

/-- The formulas directly below a formula. -/
def arguments : Formula → List Formula
  | const _ => []
  | input _ => []
  | not e => [e]
  | gate _ es => es
  | mux s x y => [s, x, y]
  | majority x y z => [x, y, z]
  | lookUp _ es => es

/-! ## Inputs of a formula -/

/-- The larger of two input places, either of which may be missing. -/
def larger : Option Nat → Option Nat → Option Nat
  | none, j => j
  | i, none => i
  | some i, some j => some (max i j)

mutual

/-- The largest input that occurs in a formula, if one occurs. -/
def largestInput? : Formula → Option Nat
  | const _ => none
  | input i => some i
  | not e => largestInput? e
  | gate _ es => largestInputOf? es
  | mux s x y => larger (largestInput? s) (larger (largestInput? x) (largestInput? y))
  | majority x y z => larger (largestInput? x) (larger (largestInput? y) (largestInput? z))
  | lookUp _ es => largestInputOf? es

/-- The largest input that occurs in any of some formulas. -/
def largestInputOf? : List Formula → Option Nat
  | [] => none
  | e :: es => larger (largestInput? e) (largestInputOf? es)

end

/-- Whether a circuit with a number of inputs has every input that occurs in the formula. -/
def accepts (e : Formula) (inputs : Nat) : Bool :=
  match e.largestInput? with
  | none => true
  | some i => i < inputs

/-! ## Masks of a formula -/

mutual

/-- Whether the mask of every look-up table in the formula fits its arguments. -/
def masksFit : Formula → Bool
  | const _ => true
  | input _ => true
  | not e => masksFit e
  | gate _ es => allMasksFit es
  | mux s x y => masksFit s && masksFit x && masksFit y
  | majority x y z => masksFit x && masksFit y && masksFit z
  | lookUp mask es => mask.fits es.length && allMasksFit es

/-- Whether the masks fit in each of some formulas. -/
def allMasksFit : List Formula → Bool
  | [] => true
  | e :: es => masksFit e && allMasksFit es

end

theorem allMasksFit_eq_all (es : List Formula) : allMasksFit es = es.all masksFit := by
  induction es with
  | nil => rfl
  | cons e es ih => rw [allMasksFit, List.all_cons, ih]

@[simp] theorem allMasksFit_iff {es : List Formula} :
    allMasksFit es = true ↔ ∀ e ∈ es, e.masksFit = true := by
  rw [allMasksFit_eq_all, List.all_eq_true]

end Formula

end VoxelLogic
