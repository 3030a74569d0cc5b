/-!
# Assignments

An assignment gives a value to every input of a circuit, first input first.  A truth table has one
row for each assignment, and the number of the row is the assignment read as a binary number whose
most significant bit is the first input.

* `Assignment.ofIndex`: the assignment of a row.
* `Assignment.index`: the row of an assignment.
* `Assignment.all`: all assignments in the order of their rows.
* `Assignment.tabulate?`: the values of a function at all assignments.  A function that has no value
  somewhere is given up at the first such assignment, and the later ones, of which there may be very
  many, are never made (`tabulate?_eq_mapM`).
-/

namespace VoxelLogic

/-- Values of the inputs of a circuit, first input first. -/
abbrev Assignment := List Bool

namespace Assignment

/-- The assignment of row `row` among the assignments of `inputs` inputs, most significant bit
first. -/
def ofIndex (inputs row : Nat) : Assignment :=
  (List.range inputs).map fun j => row.testBit (inputs - 1 - j)

/-- The row of an assignment: its values read as binary digits, most significant first. -/
def index (a : Assignment) : Nat :=
  a.foldl (fun row value => 2 * row + value.toNat) 0

/-- Number of assignments of `inputs` inputs: two to the power of it. -/
def count (inputs : Nat) : Nat := Nat.pow 2 inputs

/-- All assignments of `inputs` inputs, in the order of their rows. -/
def all (inputs : Nat) : List Assignment :=
  (List.range (count inputs)).map (ofIndex inputs)

variable {α : Type}

/-- Adds the values of a function at `left` assignments, from row `row` on, to those in `read`,
which holds the last value first. -/
def tabulateFrom? (inputs : Nat) (f : Assignment → Option α) (row : Nat) :
    Nat → List α → Option (List α)
  | 0, read => some read.reverse
  | left + 1, read =>
    match f (ofIndex inputs row) with
    | none => none
    | some value => tabulateFrom? inputs f (row + 1) left (value :: read)

/-- The values of a function at all assignments of `inputs` inputs, in the order of their rows, if
it has a value at each. -/
def tabulate? (inputs : Nat) (f : Assignment → Option α) : Option (List α) :=
  tabulateFrom? inputs f 0 (count inputs) []

@[simp] theorem length_ofIndex (inputs row : Nat) : (ofIndex inputs row).length = inputs := by
  simp [ofIndex]

@[simp] theorem length_all (inputs : Nat) : (all inputs).length = count inputs := by
  simp [all]

@[simp] theorem index_nil : index [] = 0 := rfl

theorem index_append_singleton (a : Assignment) (b : Bool) :
    index (a ++ [b]) = 2 * index a + b.toNat := by
  simp [index]

/-- Tabulating adds to what has been read the values at the rows that are left. -/
theorem tabulateFrom?_eq_mapM (inputs : Nat) (f : Assignment → Option α) (row left : Nat)
    (read : List α) :
    tabulateFrom? inputs f row left read =
      ((List.range' row left).mapM fun i => f (ofIndex inputs i)).map (read.reverse ++ ·) := by
  induction left generalizing row read with
  | zero => simp [tabulateFrom?]
  | succ left ih =>
    rw [tabulateFrom?, List.range'_succ, List.mapM_cons]
    cases f (ofIndex inputs row) with
    | none => rfl
    | some value =>
      dsimp only
      rw [ih]
      cases (List.range' (row + 1) left).mapM fun i => f (ofIndex inputs i) with
      | none => rfl
      | some values => simp

/-- Tabulating a function is applying it to all assignments. -/
theorem tabulate?_eq_mapM (inputs : Nat) (f : Assignment → Option α) :
    tabulate? inputs f = (all inputs).mapM f := by
  rw [tabulate?, tabulateFrom?_eq_mapM, all, List.mapM_map, List.range_eq_range']
  simp [Function.comp_def]

end Assignment

end VoxelLogic
