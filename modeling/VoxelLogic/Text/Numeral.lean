/-!
# Numerals

Reading of decimal numerals and of hexadecimal digits.  Only ASCII digits count.

* `ofDecimal?`: the value of a decimal numeral.  Leading zeros are allowed.
* `HexDigit`: a hexadecimal digit, with `HexDigit.ofChar?` and `HexDigit.toChar` (`ofChar?_toChar`).
-/

namespace VoxelLogic.Text

/-- The value of a decimal digit. -/
def digit? (c : Char) : Option Nat :=
  if c.isDigit then some (c.toNat - '0'.toNat) else none

/-- Reads further decimal digits after a numeral of value `value`. -/
def ofDecimalAfter? (value : Nat) : List Char → Option Nat
  | [] => some value
  | c :: cs => (digit? c).bind fun d => ofDecimalAfter? (10 * value + d) cs

/-- The value of a decimal numeral, `none` for anything but one or more digits. -/
def ofDecimal? : List Char → Option Nat
  | [] => none
  | cs => ofDecimalAfter? 0 cs

/-- A hexadecimal digit. -/
abbrev HexDigit := Fin 16

namespace HexDigit

/-- The lower-case form of a digit. -/
def toChar (d : HexDigit) : Char :=
  if d.val < 10 then Char.ofNat ('0'.toNat + d.val) else Char.ofNat ('a'.toNat + (d.val - 10))

/-- Reads a digit in either letter case. -/
def ofChar? (c : Char) : Option HexDigit :=
  if '0' ≤ c ∧ c ≤ '9' then some (Fin.ofNat 16 (c.toNat - '0'.toNat))
  else if 'a' ≤ c ∧ c ≤ 'f' then some (Fin.ofNat 16 (c.toNat - 'a'.toNat + 10))
  else if 'A' ≤ c ∧ c ≤ 'F' then some (Fin.ofNat 16 (c.toNat - 'A'.toNat + 10))
  else none

@[simp] theorem ofChar?_toChar (d : HexDigit) : ofChar? d.toChar = some d := by
  revert d; decide

end HexDigit

end VoxelLogic.Text
