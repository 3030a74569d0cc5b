import VoxelLogic.Text.Numeral

/-!
# Masks of look-up tables

A look-up table of `n` arguments is given by a mask with one bit for each of the `2 ^ n`
combinations of argument values.  The number `n` is the arity of the mask.  A mask is written in
hexadecimal digits, most significant first, so it has `2 ^ (n - 2)` of them, and one digit if its
arity is less than two.  The bits of that one digit that belong to no combination are kept but never
read.

A mask knows its arity, because its digits do not tell it: one digit can belong to the arities zero,
one and two.  Nothing makes a formula use a mask with as many arguments as the mask has been made
for, which is why reading a bit can fail.

The bits are stored in words of 64 bits.  The memory for `2 ^ 63` bytes or more, which a mask for
more than 65 arguments would take, cannot even be asked for.

* `Mask.ofNibble`: the masks of one digit.
* `Mask.isStorable`: whether the memory for a mask can be asked for.
* `Mask.fits`: whether a mask has been made for a number of arguments.
* `Mask.bit?`: a bit of a mask, if the mask has it.
* `Mask.text`, `Mask.ofText?`: the written form and its reading (`ofText?_text`).
-/

namespace VoxelLogic

open Text

/-- Number of hexadecimal digits in the mask of a look-up table. -/
def Mask.digitCount (arguments : Nat) : Nat := Nat.pow 2 (arguments - 2)

/-- The bits of a look-up table in hexadecimal digits, most significant digit first.  The arity is
at most 64, because the bits are numbered by words of 64 bits, and because no text has the `2 ^ 63`
digits of a mask of arity 65. -/
structure Mask where
  arity : Nat
  digits : List HexDigit
  arity_le : arity ≤ 64
  length_digits : digits.length = Mask.digitCount arity
  deriving DecidableEq, Repr

namespace Mask

/-- The mask of which four bits are the only digit.  It is for two arguments at most. -/
def ofNibble (arguments : Nat) (bits : BitVec 4) : Mask where
  arity := min arguments 2
  digits := [bits.toFin]
  arity_le := Nat.le_trans (Nat.min_le_right arguments 2) (by decide)
  length_digits := by
    have hone : min arguments 2 - 2 = 0 := by omega
    rw [digitCount, hone]
    rfl

/-- Number of bytes in which the mask of a look-up table is stored: eight for each word. -/
def byteCount (arguments : Nat) : Nat := 8 * Nat.pow 2 (arguments - 6)

/-- Whether the memory for the mask of a look-up table can be asked for. -/
def isStorable (arguments : Nat) : Bool := byteCount arguments < Nat.pow 2 63

/-- Whether the mask has been made for a number of arguments. -/
def fits (mask : Mask) (arguments : Nat) : Bool := mask.arity == arguments

/-- Bit `i` of the mask, counted from the least significant, if there is a combination of argument
values with that number. -/
def bit? (mask : Mask) (i : Nat) : Option Bool :=
  if i < Nat.pow 2 mask.arity then
    mask.digits.reverse[i / 4]?.map fun digit => digit.val.testBit (i % 4)
  else none

/-- The digits of a mask in lower case. -/
def text (mask : Mask) : String := String.ofList (mask.digits.map HexDigit.toChar)

/-- Reads hexadecimal digits in either letter case. -/
def readDigits? : List Char → Option (List HexDigit)
  | [] => some []
  | c :: cs => (HexDigit.ofChar? c).bind fun d => (readDigits? cs).map (d :: ·)

/-- Reads the mask of a look-up table with a given number of arguments. -/
def ofText? (arguments : Nat) (text : List Char) : Option Mask :=
  (readDigits? text).bind fun digits =>
    if h : arguments ≤ 64 ∧ digits.length = digitCount arguments then
      some ⟨arguments, digits, h.1, h.2⟩
    else none

@[simp] theorem fits_iff {mask : Mask} {arguments : Nat} :
    mask.fits arguments = true ↔ mask.arity = arguments :=
  beq_iff_eq

theorem readDigits?_map_toChar (digits : List HexDigit) :
    readDigits? (digits.map HexDigit.toChar) = some digits := by
  induction digits with
  | nil => rfl
  | cons d ds ih => simp [readDigits?, ih]

/-- A mask that is read fits the arguments it was read for. -/
theorem fits_of_ofText? {arguments : Nat} {text : List Char} {mask : Mask}
    (h : ofText? arguments text = some mask) : mask.fits arguments = true := by
  obtain ⟨digits, -, hmask⟩ := Option.bind_eq_some_iff.1 h
  split at hmask
  · cases hmask
    exact fits_iff.2 rfl
  · cases hmask

/-- Reading a mask undoes writing it. -/
theorem ofText?_text {arguments : Nat} {mask : Mask} (h : mask.fits arguments = true) :
    ofText? arguments mask.text.toList = some mask := by
  obtain rfl := fits_iff.1 h
  have hsize : mask.arity ≤ 64 ∧ mask.digits.length = digitCount mask.arity :=
    ⟨mask.arity_le, mask.length_digits⟩
  rw [ofText?, text, String.toList_ofList, readDigits?_map_toChar, Option.bind_some, dif_pos hsize]

end Mask

end VoxelLogic
