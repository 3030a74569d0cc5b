import VoxelLogic.Formula.Mask
import VoxelLogic.Proofs.Text.Numeral
import Mathlib.Algebra.Group.Nat.Defs

/-!
# Sizes of masks

Which masks there are, in numbers.

* `readDigits?_eq_some_iff`: digits are read one by one, in either letter case
  (`ofText?_map_toUpper`).
* `isStorable_iff`: the memory for masks can be asked for up to 65 arguments.
* `digitCount_eq_max`: a mask of a look-up table has one digit for four combinations of argument
  values, and at least one digit.
* `isSome_bit?_iff`: the bits of a mask, each of which stands in one of its digits.
-/

namespace VoxelLogic.Mask

open Text

theorem readDigits?_eq_some_iff {text : List Char} {digits : List HexDigit} :
    readDigits? text = some digits ↔ text.map HexDigit.ofChar? = digits.map some := by
  induction text generalizing digits with
  | nil => cases digits <;> simp [readDigits?]
  | cons c cs ih => cases digits <;> simp [readDigits?, Option.bind_eq_some_iff, ih]

/-- The mask that is read is the mask of the digits that were read, if it fits. -/
theorem ofText?_eq_some_iff {arguments : Nat} {text : List Char} {mask : Mask} :
    ofText? arguments text = some mask ↔
      text.map HexDigit.ofChar? = mask.digits.map some ∧ mask.fits arguments = true := by
  rw [← readDigits?_eq_some_iff]
  constructor
  · intro h
    obtain ⟨digits, hdigits, hmask⟩ := Option.bind_eq_some_iff.1 h
    split at hmask
    · cases hmask
      exact ⟨hdigits, fits_iff.2 rfl⟩
    · cases hmask
  · rintro ⟨hdigits, hfits⟩
    obtain rfl := fits_iff.1 hfits
    have hsize : mask.arity ≤ 64 ∧ mask.digits.length = digitCount mask.arity :=
      ⟨mask.arity_le, mask.length_digits⟩
    rw [ofText?, hdigits, Option.bind_some, dif_pos hsize]

/-- A mask is read for no more arguments than a mask can be made for. -/
theorem le_of_ofText? {arguments : Nat} {text : List Char} {mask : Mask}
    (h : ofText? arguments text = some mask) : arguments ≤ 64 :=
  fits_iff.1 (fits_of_ofText? h) ▸ mask.arity_le

/-- A mask is read from the capitals of its digits. -/
theorem ofText?_map_toUpper (arguments : Nat) (text : List Char) :
    ofText? arguments (text.map Char.toUpper) = ofText? arguments text := by
  have hdigits : readDigits? (text.map Char.toUpper) = readDigits? text := by
    induction text with
    | nil => rfl
    | cons c cs ih => simp only [List.map_cons, readDigits?, HexDigit.ofChar?_toUpper, ih]
  rw [ofText?, hdigits, ofText?]

private theorem pow_eq (n : Nat) : Nat.pow 2 n = 2 ^ n := rfl

/-- The number of digits is a quarter of the number of combinations, and at least one. -/
theorem digitCount_eq_max (arguments : Nat) :
    digitCount arguments = max 1 (2 ^ arguments / 4) := by
  rw [digitCount, pow_eq]
  match arguments with
  | 0 | 1 => rfl
  | n + 2 =>
    have hquarter : 2 ^ (n + 2) / 4 = 2 ^ n := by
      rw [Nat.pow_add]
      exact Nat.mul_div_cancel _ (by decide)
    rw [hquarter, Nat.add_sub_cancel, Nat.max_eq_right Nat.one_le_two_pow]

/-- The memory for masks can be asked for up to 65 arguments. -/
theorem isStorable_iff {arguments : Nat} : isStorable arguments = true ↔ arguments ≤ 65 := by
  have hbytes : 8 * 2 ^ (arguments - 6) = 2 ^ (arguments - 6 + 3) := by
    rw [Nat.pow_add, Nat.mul_comm]
  rw [isStorable, decide_eq_true_iff, byteCount, pow_eq, pow_eq, hbytes,
    Nat.pow_lt_pow_iff_right Nat.one_lt_two]
  omega

theorem length_digits_eq_max (mask : Mask) : mask.digits.length = max 1 (2 ^ mask.arity / 4) := by
  rw [mask.length_digits, digitCount_eq_max]

/-- **A mask has a bit for each combination of as many values as its arity.**  The digits of the
mask reach up to the last of them. -/
theorem isSome_bit?_iff {mask : Mask} {i : Nat} :
    (mask.bit? i).isSome = true ↔ i < 2 ^ mask.arity := by
  rw [bit?, pow_eq]
  split
  · next hlt =>
    have hfour : 2 ^ mask.arity ≤ 4 * 2 ^ (mask.arity - 2) := by
      rw [Nat.mul_comm, ← Nat.pow_add _ _ 2]
      exact Nat.pow_le_pow_right (by decide) (by omega)
    have hdigit : i / 4 < mask.digits.reverse.length := by
      rw [List.length_reverse, mask.length_digits, digitCount, pow_eq]
      omega
    rw [List.getElem?_eq_getElem hdigit]
    exact iff_of_true rfl hlt
  · next hlt => exact iff_of_false Bool.false_ne_true hlt

end VoxelLogic.Mask
