import VoxelLogic.PackedRow
import Mathlib.Algebra.Group.Nat.Defs

/-!
# Bits of packed rows

A packed row is told apart from others by its sentinel and by its outputs, so statements about rows
are made through `PackedRow.output` and never through words.

* `output_pack`, `sentinel_pack`: what storing outputs puts into a row.
* `fits_iff`: a row fits a number of outputs when no output from that number on is set, which bounds
  the row as a number (`fits_iff_toNat_lt`).
* `eq_of_output`: rows with equal sentinels and equal outputs are equal.
* `clearSentinel`: a row with its sentinel cleared, told by its outputs (`eq_clearSentinel`).
* `unpack_pack`, `pack_unpack`: storing and reading outputs undo each other, up to the sentinel.
-/

namespace VoxelLogic.PackedRow

/-- A row reads bits least significant first. -/
theorem testBit_ofBits (bits : List Bool) (i : Nat) :
    (ofBits bits).testBit i = bits[i]?.getD false := by
  induction bits generalizing i with
  | nil => simp
  | cons b bs ih =>
    have hb : b.toNat ≤ 1 := Bool.toNat_le b
    cases i with
    | zero =>
      rw [ofBits_cons, Nat.testBit_zero]
      cases b <;> simp
    | succ i =>
      have hhalf : (b.toNat + 2 * ofBits bs) / 2 = ofBits bs := by omega
      rw [ofBits_cons, Nat.testBit_succ, hhalf, ih, List.getElem?_cons_succ]

/-- The word has room for 63 outputs above the sentinel. -/
theorem output_eq_false_of_le (row : PackedRow) {k : Nat} (h : 63 ≤ k) : row.output k = false :=
  BitVec.getLsbD_of_ge row (k + 1) (by omega)

/-- Output `k` of a stored row is the value that was stored `k`-th. -/
theorem output_pack {bits : List Bool} (h : bits.length < 64) (k : Nat) :
    (pack bits).output k = bits[k]?.getD false := by
  rcases Nat.lt_or_ge k 63 with hk | hk
  · have hdouble : (2 * ofBits bits) / 2 = ofBits bits := by omega
    rw [output, pack, BitVec.getLsbD_ofNat, Nat.testBit_succ, hdouble, testBit_ofBits]
    simp only [Bool.and_eq_right_iff_imp, decide_eq_true_eq]
    omega
  · rw [output_eq_false_of_le _ hk, List.getElem?_eq_none (by omega)]
    rfl

/-- A stored row has a clear sentinel. -/
theorem sentinel_pack (bits : List Bool) : (pack bits).getLsbD 0 = false := by
  rw [pack, BitVec.getLsbD_ofNat, Nat.testBit_zero]
  simp

/-- A row fits a number of outputs when none of the outputs from that number on is set. -/
theorem fits_iff {row : PackedRow} {outputs : Nat} :
    row.fits outputs = true ↔ ∀ k, outputs ≤ k → row.output k = false := by
  have hzero : ∀ i, (0 : PackedRow).getLsbD i = false := fun i => BitVec.getLsbD_zero
  rw [fits, beq_iff_eq]
  constructor
  · intro h k hk
    have hbit := congrArg (fun w => w.getLsbD (k - outputs)) h
    simp only [BitVec.getLsbD_ushiftRight, hzero, width] at hbit
    rw [output, ← hbit]
    congr 1
    omega
  · intro h
    apply BitVec.eq_of_getLsbD_eq
    intro i _
    have hbit := h (outputs + i) (Nat.le_add_right _ _)
    simp only [BitVec.getLsbD_ushiftRight, hzero, width]
    rw [← hbit, output]
    congr 1
    omega

/-- A row fits a number of outputs when it is a number of that many bits and the sentinel. -/
theorem fits_iff_toNat_lt {row : PackedRow} {outputs : Nat} :
    row.fits outputs = true ↔ row.toNat < 2 ^ (outputs + 1) := by
  rw [fits, beq_iff_eq, ← BitVec.toNat_inj, BitVec.toNat_ushiftRight, Nat.shiftRight_eq_div_pow,
    width]
  exact Nat.div_eq_zero_iff_lt (Nat.two_pow_pos _)

/-- Whether a row fits does not depend on its sentinel. -/
theorem fits_congr {r s : PackedRow} (h : ∀ i, i ≠ 0 → r.getLsbD i = s.getLsbD i)
    (outputs : Nat) : r.fits outputs = s.fits outputs := by
  have houtput (k : Nat) : r.output k = s.output k := h (k + 1) (Nat.succ_ne_zero k)
  rw [Bool.eq_iff_iff, fits_iff, fits_iff]
  simp only [houtput]

/-- Stored outputs fit. -/
theorem fits_pack {bits : List Bool} (h : bits.length < 64) {outputs : Nat}
    (hle : bits.length ≤ outputs) : (pack bits).fits outputs = true := by
  rw [fits_iff]
  intro k hk
  rw [output_pack h, List.getElem?_eq_none (by omega)]
  rfl

/-- Rows with the same sentinel and the same outputs are the same. -/
theorem eq_of_output {r s : PackedRow} (hsentinel : r.getLsbD 0 = s.getLsbD 0)
    (h : ∀ k, r.output k = s.output k) : r = s := by
  apply BitVec.eq_of_getLsbD_eq
  intro i _
  cases i with
  | zero => exact hsentinel
  | succ k => exact h k

/-! ## Cleared sentinels -/

/-- A row with its sentinel cleared. -/
def clearSentinel (row : PackedRow) : PackedRow := row &&& ~~~1

theorem sentinel_clearSentinel (row : PackedRow) : row.clearSentinel.getLsbD 0 = false := by
  simp [clearSentinel]

@[simp] theorem output_clearSentinel (row : PackedRow) (k : Nat) :
    row.clearSentinel.output k = row.output k := by
  rcases Nat.lt_or_ge k 63 with hk | hk
  · have hone : (1 : PackedRow).getLsbD (k + 1) = false := by
      rw [BitVec.ofNat_eq_ofNat, BitVec.getLsbD_one]
      simp
    have hlt : k + 1 < 64 := by omega
    rw [output, clearSentinel, BitVec.getLsbD_and, BitVec.getLsbD_not, hone, decide_eq_true hlt]
    simp [output]
  · rw [output_eq_false_of_le _ hk, output_eq_false_of_le _ hk]

/-- A row with a clear sentinel is told by its outputs. -/
theorem eq_clearSentinel {r s : PackedRow} (hsentinel : r.getLsbD 0 = false)
    (h : ∀ k, r.output k = s.output k) : r = s.clearSentinel := by
  refine eq_of_output ?_ fun k => ?_
  · rw [hsentinel, sentinel_clearSentinel]
  · rw [h k, output_clearSentinel]

@[simp] theorem clearSentinel_clearSentinel (row : PackedRow) :
    row.clearSentinel.clearSentinel = row.clearSentinel :=
  (eq_clearSentinel (sentinel_clearSentinel row) fun _ => rfl).symm

@[simp] theorem clearSentinel_pack (bits : List Bool) : (pack bits).clearSentinel = pack bits :=
  (eq_clearSentinel (sentinel_pack bits) fun _ => rfl).symm

/-! ## Reading outputs back -/

theorem getElem?_unpack (row : PackedRow) (outputs k : Nat) :
    (row.unpack outputs)[k]? = if k < outputs then some (row.output k) else none := by
  by_cases hk : k < outputs
  · simp [unpack, hk]
  · simp [unpack, hk]

/-- Stored outputs are read back. -/
theorem unpack_pack {bits : List Bool} (h : bits.length < 64) :
    (pack bits).unpack bits.length = bits := by
  ext1 k
  rw [getElem?_unpack, output_pack h]
  split
  · next hk => rw [List.getElem?_eq_getElem hk, Option.getD_some]
  · next hk => rw [List.getElem?_eq_none (Nat.le_of_not_lt hk)]

/-- What is read from a row that fits is stored as the row with its sentinel cleared. -/
theorem pack_unpack {row : PackedRow} {outputs : Nat} (h : row.fits outputs = true)
    (hlt : outputs < 64) : pack (row.unpack outputs) = row.clearSentinel := by
  refine eq_clearSentinel (sentinel_pack _) fun k => ?_
  rw [output_pack (by rwa [length_unpack]), getElem?_unpack]
  split
  · rfl
  · next hk => exact (fits_iff.1 h k (Nat.le_of_not_lt hk)).symm

/-- The same outputs are read from two rows that fit exactly if the rows differ in their sentinels
at most. -/
theorem unpack_eq_iff {r s : PackedRow} {outputs : Nat} (hr : r.fits outputs = true)
    (hs : s.fits outputs = true) :
    r.unpack outputs = s.unpack outputs ↔ ∀ i, i ≠ 0 → r.getLsbD i = s.getLsbD i := by
  constructor
  · intro h i hi
    obtain ⟨k, rfl⟩ := Nat.exists_eq_succ_of_ne_zero hi
    have hget := congrArg (fun bits => bits[k]?) h
    simp only [getElem?_unpack] at hget
    by_cases hk : k < outputs
    · rw [if_pos hk, if_pos hk] at hget
      exact Option.some.inj hget
    · -- neither row has an output above those that it fits
      show r.output k = s.output k
      rw [fits_iff.1 hr k (Nat.le_of_not_lt hk), fits_iff.1 hs k (Nat.le_of_not_lt hk)]
  · intro h
    exact List.map_congr_left fun k _ => h (k + 1) (Nat.succ_ne_zero k)

end VoxelLogic.PackedRow
