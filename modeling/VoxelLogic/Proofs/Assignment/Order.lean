import VoxelLogic.Pin
import VoxelLogic.Proofs.Assignment
import Mathlib.Data.Nat.Digits.Defs
import Mathlib.Data.Set.Function
import Mathlib.Order.Interval.Set.Defs

/-!
# Assignments in the order of their rows

The row of an assignment is the binary numeral that the assignment spells, so among assignments of
one length the order of the rows is the lexicographic order in which `false` comes before `true`.
An output that is looked up in a table finds the row of the assignment again.

* `ofDigits_eq_index`, `foldl_shiftLeft_eq_index`: the row of an assignment as a number in base two,
  and as a word into which the values are shifted.
* `index_cons`: the first input is the most significant bit of a row.
* `index_lt_index_iff`: rows are in the lexicographic order of their assignments.
* `bijOn_ofIndex`, `bijOn_index`, `lt_iff_ofIndex_lt`: the rows of a table and the assignments of
  its inputs determine each other, in this order.
* `Behaviour.value?_lookUp`: a look-up reads the row that has the assignment.
* `rows_and_assignments`: the above together.
-/

namespace VoxelLogic

namespace Assignment

/-- The row of an assignment is its values read in base two, most significant first. -/
theorem ofDigits_eq_index (a : Assignment) :
    Nat.ofDigits 2 (a.map Bool.toNat).reverse = a.index := by
  induction a using List.reverseRecOn with
  | nil => rfl
  | append_singleton a b ih =>
    rw [List.map_append, List.reverse_append, index_append_singleton, ← ih]
    show Nat.ofDigits 2 (b.toNat :: (a.map Bool.toNat).reverse) = _
    rw [Nat.ofDigits_cons]
    exact Nat.add_comm _ _

/-- The row of an assignment is found by shifting its values in from the right. -/
theorem foldl_shiftLeft_eq_index (a : Assignment) :
    a.foldl (fun row value => row <<< 1 ||| value.toNat) 0 = a.index := by
  have hstep (row : Nat) (value : Bool) : row <<< 1 ||| value.toNat = 2 * row + value.toNat := by
    rw [← Nat.shiftLeft_add_eq_or_of_lt (Bool.toNat_lt value), Nat.shiftLeft_eq, pow_one,
      Nat.mul_comm]
  simp only [hstep, index]

/-- The first input is the most significant bit of a row. -/
theorem index_cons (b : Bool) (a : Assignment) :
    index (b :: a) = b.toNat * count a.length + index a := by
  induction a using List.reverseRecOn with
  | nil => simp [index, count]
  | append_singleton a c ih =>
    have hlast : index (b :: (a ++ [c])) = 2 * index (b :: a) + c.toNat :=
      index_append_singleton (b :: a) c
    rw [hlast, ih, index_append_singleton, List.length_append, List.length_singleton, count_succ,
      Nat.mul_left_comm]
    omega

/-- Rows are in the lexicographic order of their assignments. -/
theorem index_lt_index_iff {a b : Assignment} (h : a.length = b.length) :
    index a < index b ↔ a < b := by
  induction a generalizing b with
  | nil =>
    obtain rfl : b = [] := List.length_eq_zero_iff.1 h.symm
    simp
  | cons x a ih =>
    cases b with
    | nil => cases h
    | cons y b =>
      have hlength : a.length = b.length := Nat.succ.inj h
      -- what follows the first input makes less than the first input alone
      have ha : index a < count b.length := hlength ▸ index_lt_count a
      have hb : index b < count b.length := index_lt_count b
      have hvalues : ¬ true < false := by decide
      rw [index_cons, index_cons, hlength, List.cons_lt_cons_iff, ← ih hlength]
      cases x <;> cases y <;> simp [hvalues] <;> omega

/-- The rows below the number of rows and the assignments of the right length determine each
other. -/
theorem bijOn_ofIndex (n : Nat) :
    Set.BijOn (ofIndex n) (Set.Iio (2 ^ n)) {a | a.length = n} := by
  refine ⟨fun i _ => length_ofIndex n i, fun i hi j hj heq => ?_, fun a ha => ?_⟩
  · rw [← index_ofIndex_of_lt hi, ← index_ofIndex_of_lt hj, heq]
  · exact ⟨index a, index_lt_of_length ha, ofIndex_index_of_length ha⟩

theorem bijOn_index (n : Nat) : Set.BijOn index {a | a.length = n} (Set.Iio (2 ^ n)) := by
  refine ⟨fun a ha => index_lt_of_length ha, fun a ha b hb heq => ?_, fun i hi => ?_⟩
  · rw [← ofIndex_index_of_length ha, ← ofIndex_index_of_length hb, heq]
  · exact ⟨ofIndex n i, length_ofIndex n i, index_ofIndex_of_lt hi⟩

/-- The order of rows is the lexicographic order of their assignments. -/
theorem lt_iff_ofIndex_lt {n i j : Nat} (hi : i < 2 ^ n) (hj : j < 2 ^ n) :
    i < j ↔ ofIndex n i < ofIndex n j := by
  have hlength : (ofIndex n i).length = (ofIndex n j).length := by
    rw [length_ofIndex, length_ofIndex]
  rw [← index_lt_index_iff hlength, index_ofIndex_of_lt hi, index_ofIndex_of_lt hj]

end Assignment

open Assignment

/-- A look-up reads the row of the assignment, which a table with a row for each assignment has. -/
theorem Behaviour.value?_lookUp {n : Nat} {rows : Array PackedRow} (hrows : rows.size = 2 ^ n)
    (k : Nat) {a : Assignment} (ha : a.length = n) :
    ∃ row, rows[a.index]? = some row ∧
      (Behaviour.lookUp rows k).value? a = some (row.getLsbD (k + 1)) := by
  have hlt : a.index < rows.size := by
    rw [hrows]
    exact index_lt_of_length ha
  refine ⟨rows[a.index], Array.getElem?_eq_getElem hlt, ?_⟩
  rw [Behaviour.value?, Array.getElem?_eq_getElem hlt]
  rfl

/-- **Rows and assignments.**  The assignment of a row has the length that is asked for, and read in
base two, most significant value first, it is the row modulo the number of rows.  On the rows below
that number this is a bijection with the assignments of the length, and it carries the order of
numbers to the lexicographic order.  A look-up in a table with so many rows shifts the values of an
assignment into the row that has this assignment, and it gives the bit of the output in that row of
the table. -/
theorem rows_and_assignments (n : Nat) :
    (∀ i, (ofIndex n i).length = n ∧
      Nat.ofDigits 2 ((ofIndex n i).map Bool.toNat).reverse = i % 2 ^ n) ∧
    Set.BijOn (ofIndex n) (Set.Iio (2 ^ n)) {a | a.length = n} ∧
    (∀ i < 2 ^ n, ∀ j < 2 ^ n, i < j ↔ ofIndex n i < ofIndex n j) ∧
    ∀ rows : Array PackedRow, rows.size = 2 ^ n → ∀ (k : Nat) (a : Assignment), a.length = n →
      ∃ i row, a.foldl (fun row value => row <<< 1 ||| value.toNat) 0 = i ∧ i < 2 ^ n ∧
        ofIndex n i = a ∧ rows[i]? = some row ∧
        (Behaviour.lookUp rows k).value? a = some (row.getLsbD (k + 1)) := by
  refine ⟨fun i => ⟨length_ofIndex n i, ?_⟩, bijOn_ofIndex n, fun i hi j hj => ?_, ?_⟩
  · rw [ofDigits_eq_index]
    exact index_ofIndex n i
  · exact lt_iff_ofIndex_lt hi hj
  · intro rows hrows k a ha
    obtain ⟨row, hrow, hvalue⟩ := Behaviour.value?_lookUp hrows k ha
    exact ⟨a.index, row, foldl_shiftLeft_eq_index a, index_lt_of_length ha,
      ofIndex_index_of_length ha, hrow, hvalue⟩

/-- The first and the last bit of a row of 64 inputs, the order of two rows that differ in their
first bit, and the last output that a word has room for. -/
theorem rows_and_assignments_ends :
    ofIndex 64 (2 ^ 63 + 1) = true :: (List.replicate 62 false ++ [true]) ∧
      Nat.ofDigits 2 ((ofIndex 64 (2 ^ 63 + 1)).map Bool.toNat).reverse = 2 ^ 63 + 1 ∧
      ofIndex 64 (2 ^ 63 - 1) < ofIndex 64 (2 ^ 63) ∧
      (Behaviour.lookUp #[0, 0, 9223372036854775808, 0] 62).value? [true, false] = some true := by
  obtain ⟨hvalue, -, horder, -⟩ := rows_and_assignments 64
  obtain ⟨-, -, -, hlookUp⟩ := rows_and_assignments 2
  refine ⟨by decide, (hvalue _).2, (horder _ (by decide) _ (by decide)).1 (by decide), ?_⟩
  obtain ⟨i, row, rfl, -, -, hrow, hread⟩ :=
    hlookUp #[0, 0, 9223372036854775808, 0] rfl 62 [true, false] rfl
  obtain rfl : 9223372036854775808 = row := Option.some.inj hrow
  rw [hread]
  decide

end VoxelLogic
