import VoxelLogic.Assignment
import Mathlib.Data.List.Induction
import Mathlib.Data.List.Nodup

/-!
# Rows and assignments

The assignments of `n` inputs and the rows below `2 ^ n` determine each other.

* `index_ofIndex`: an assignment reads back as its row, taken modulo the number of rows.
* `ofIndex_index`: the row of an assignment has that assignment.
* `mem_all_iff`: the list of all assignments holds exactly the assignments of the right length, each
  of them once (`count_all`) and in the order of their rows (`pairwise_all`).

Both identities are proved from the last input, which is the least significant bit of a row:
`ofIndex_succ` splits it off an assignment, `index_append_singleton` off a row.
-/

namespace VoxelLogic.Assignment

theorem count_succ (inputs : Nat) : count (inputs + 1) = 2 * count inputs :=
  Nat.mul_comm (count inputs) 2

@[simp] theorem ofIndex_zero (row : Nat) : ofIndex 0 row = [] := rfl

theorem getElem_ofIndex {inputs row j : Nat} (h : j < (ofIndex inputs row).length) :
    (ofIndex inputs row)[j] = row.testBit (inputs - 1 - j) := by
  simp [ofIndex]

/-- The last input of a row is its least significant bit, and the inputs before it are those of
half the row. -/
theorem ofIndex_succ (inputs row : Nat) :
    ofIndex (inputs + 1) row = ofIndex inputs (row / 2) ++ [row.testBit 0] := by
  apply List.ext_getElem
  · simp
  · intro j h₁ h₂
    rw [length_ofIndex] at h₁
    rw [getElem_ofIndex]
    rcases Nat.lt_or_ge j inputs with hj | hj
    · rw [List.getElem_append_left (by simpa using hj), getElem_ofIndex, ← Nat.testBit_succ]
      congr 1
      omega
    · have hj' : j = inputs := by omega
      subst hj'
      simp

/-- The row of an assignment is below the number of rows. -/
theorem index_lt_count (a : Assignment) : a.index < count a.length := by
  induction a using List.reverseRecOn with
  | nil => decide
  | append_singleton a b ih =>
    rw [index_append_singleton, List.length_append, List.length_singleton, count_succ]
    have hb : b.toNat ≤ 1 := Bool.toNat_le b
    omega

/-- An assignment made from a row reads back as the row. -/
theorem index_ofIndex (inputs row : Nat) : (ofIndex inputs row).index = row % count inputs := by
  induction inputs generalizing row with
  | zero => simp [count, Nat.mod_one]
  | succ inputs ih =>
    rw [ofIndex_succ, index_append_singleton, ih, count_succ, Nat.mod_mul, Nat.testBit_zero]
    have hbit : (decide (row % 2 = 1)).toNat = row % 2 := by
      rcases Nat.mod_two_eq_zero_or_one row with h | h <;> rw [h] <;> rfl
    omega

theorem index_ofIndex_of_lt {inputs row : Nat} (h : row < count inputs) :
    (ofIndex inputs row).index = row := by
  rw [index_ofIndex, Nat.mod_eq_of_lt h]

/-- The row of an assignment has that assignment. -/
theorem ofIndex_index (a : Assignment) : ofIndex a.length a.index = a := by
  induction a using List.reverseRecOn with
  | nil => rfl
  | append_singleton a b ih =>
    have hhalf : (2 * index a + b.toNat) / 2 = index a := by
      have hb : b.toNat ≤ 1 := Bool.toNat_le b
      omega
    have hbit : (2 * index a + b.toNat).testBit 0 = b := by
      rw [Nat.testBit_zero]
      cases b <;> simp
    rw [index_append_singleton, List.length_append, List.length_singleton, ofIndex_succ, hhalf,
      hbit, ih]

theorem ofIndex_index_of_length {a : Assignment} {inputs : Nat} (h : a.length = inputs) :
    ofIndex inputs a.index = a := by
  rw [← h, ofIndex_index]

theorem index_lt_of_length {a : Assignment} {inputs : Nat} (h : a.length = inputs) :
    a.index < count inputs := by
  rw [← h]
  exact index_lt_count a

/-! ## All assignments -/

theorem getElem_all {inputs i : Nat} (h : i < (all inputs).length) :
    (all inputs)[i] = ofIndex inputs i := by
  simp [all]

/-- The assignments of a number of inputs are the lists of that many values. -/
theorem mem_all_iff {inputs : Nat} {a : Assignment} : a ∈ all inputs ↔ a.length = inputs := by
  constructor
  · intro h
    obtain ⟨i, -, rfl⟩ := List.mem_map.1 h
    exact length_ofIndex inputs i
  · intro h
    exact List.mem_map.2 ⟨a.index, List.mem_range.2 (index_lt_of_length h),
      ofIndex_index_of_length h⟩

/-- An assignment stands at its own row. -/
theorem getElem?_all_index {inputs : Nat} {a : Assignment} (h : a.length = inputs) :
    (all inputs)[a.index]? = some a := by
  have hlt : a.index < (all inputs).length := by
    rw [length_all]
    exact index_lt_of_length h
  rw [List.getElem?_eq_getElem hlt, getElem_all, ofIndex_index_of_length h]

/-- The assignments are listed in the order of their rows. -/
theorem pairwise_all (inputs : Nat) : (all inputs).Pairwise fun a b => a.index < b.index := by
  rw [all, List.pairwise_map]
  refine List.pairwise_lt_range.imp_of_mem fun {i j} hi hj hij => ?_
  rwa [index_ofIndex_of_lt (List.mem_range.1 hi), index_ofIndex_of_lt (List.mem_range.1 hj)]

theorem nodup_all (inputs : Nat) : (all inputs).Nodup :=
  (pairwise_all inputs).imp fun h heq => Nat.ne_of_lt h (congrArg index heq)

/-- Every assignment is listed once. -/
theorem count_all {inputs : Nat} {a : Assignment} (h : a.length = inputs) :
    (all inputs).count a = 1 :=
  List.count_eq_one_of_mem (nodup_all inputs) (mem_all_iff.2 h)

end VoxelLogic.Assignment
