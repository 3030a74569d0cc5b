import VoxelLogic.Json.Fault
import VoxelLogic.Text.Reading

/-!
# The bytes of a JSON text

A JSON text is read as bytes, since the text inside a string may be skipped without being decoded.
This module names the bytes that mean something and reads the simplest things: the next byte that is
not blank, a fixed word, and hexadecimal digits.
-/

namespace VoxelLogic.Json

open Text

/-- The quote around a string. -/
abbrev quote : UInt8 := 0x22
/-- The sign that starts an escape. -/
abbrev backslash : UInt8 := 0x5C
/-- The sign between the members of an array or an object. -/
abbrev comma : UInt8 := 0x2C
/-- The sign between a name and its value. -/
abbrev colon : UInt8 := 0x3A
/-- The bracket that opens an array. -/
abbrev arrayStart : UInt8 := 0x5B
/-- The bracket that closes an array. -/
abbrev arrayEnd : UInt8 := 0x5D
/-- The brace that opens an object. -/
abbrev objectStart : UInt8 := 0x7B
/-- The brace that closes an object. -/
abbrev objectEnd : UInt8 := 0x7D
/-- The sign of a negative number. -/
abbrev minus : UInt8 := 0x2D
/-- The sign of a positive exponent. -/
abbrev plus : UInt8 := 0x2B
/-- The sign before the fraction of a number. -/
abbrev point : UInt8 := 0x2E
/-- The digit zero. -/
abbrev zeroDigit : UInt8 := 0x30

/-- The blanks of JSON: space, line feed, carriage return and tab. -/
def isBlank (b : UInt8) : Bool := b == 0x20 || b == 0x0A || b == 0x0D || b == 0x09

/-- The decimal digits. -/
def isDigit (b : UInt8) : Bool := zeroDigit ≤ b && b ≤ 0x39

/-- The value of a decimal digit. -/
def digitValue (b : UInt8) : Nat := b.toNat - zeroDigit.toNat

/-- The value of a hexadecimal digit in either letter case. -/
def hexValue? (b : UInt8) : Option Nat :=
  if isDigit b then some (digitValue b)
  else if 0x61 ≤ b ∧ b ≤ 0x66 then some (b.toNat - 0x61 + 10)
  else if 0x41 ≤ b ∧ b ≤ 0x46 then some (b.toNat - 0x41 + 10)
  else none

/-- The first byte that is not blank. -/
def next? (source : List UInt8) : Option (Reading UInt8 source) :=
  match h : source.dropWhile isBlank with
  | [] => none
  | b :: rest =>
    some ⟨b, rest, by
      have hle : (source.dropWhile isBlank).length ≤ source.length :=
        (List.dropWhile_sublist _).length_le
      rw [h, List.length_cons] at hle
      exact hle⟩

/-- The start of a reading: nothing has been taken yet. -/
theorem length_le_self (source : List UInt8) : source.length ≤ source.length :=
  Nat.le_refl source.length

/-- Reads the bytes of a word. -/
def readWord : List UInt8 → (source : List UInt8) → Except Fault (OptionalReading Unit source)
  | [], source => .ok ⟨(), source, length_le_self source⟩
  | _ :: _, [] => .error .truncated
  | b :: word, c :: source =>
    if c = b then
      match readWord word source with
      | .error fault => .error fault
      | .ok r => .ok ⟨(), r.rest, Nat.le_succ_of_le r.length_le⟩
    else .error .malformed

/-- What follows the first letter of the words `null`, `true` and `false`, by that letter. -/
def wordAfter? (b : UInt8) : Option (List UInt8) :=
  if b = 0x6E then some [0x75, 0x6C, 0x6C]
  else if b = 0x74 then some [0x72, 0x75, 0x65]
  else if b = 0x66 then some [0x61, 0x6C, 0x73, 0x65]
  else none

end VoxelLogic.Json
