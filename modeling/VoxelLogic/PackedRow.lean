/-!
# Packed rows

The outputs of one row of a truth table are stored in a 64-bit word.  Bit 0 is a sentinel, which is
clear in every row that is written here and ignored in every row that is read; output `k` is bit
`k + 1`.

* `PackedRow.pack`, `PackedRow.unpack`: storing outputs in a word, and reading them back.
* `PackedRow.fits`: whether a row has no bit above its outputs.
-/

namespace VoxelLogic

/-- One row of a truth table in a 64-bit word. -/
abbrev PackedRow := BitVec 64

/-- A truth table with one word for each row. -/
abbrev PackedTable := List PackedRow

namespace PackedRow

/-- Number of bits of a row with `outputs` outputs, the sentinel included. -/
def width (outputs : Nat) : Nat := outputs + 1

/-- The value of output `k` in a row. -/
def output (row : PackedRow) (k : Nat) : Bool := row.getLsbD (k + 1)

/-- Reads bits as a number, least significant first. -/
def ofBits : List Bool → Nat
  | [] => 0
  | b :: bs => b.toNat + 2 * ofBits bs

/-- Stores outputs in a row, above a clear sentinel. -/
def pack (outputs : List Bool) : PackedRow := BitVec.ofNat 64 (2 * ofBits outputs)

/-- Stores outputs in a row if the word is wide enough for them and the sentinel. -/
def pack? (outputs : List Bool) : Option PackedRow :=
  if outputs.length < 64 then some (pack outputs) else none

/-- The first `outputs` outputs of a row. -/
def unpack (row : PackedRow) (outputs : Nat) : List Bool :=
  (List.range outputs).map row.output

/-- A row fits `outputs` outputs if it has no set bit above them. -/
def fits (row : PackedRow) (outputs : Nat) : Bool := row >>> width outputs == 0

/-- The row as a binary numeral of at least `digits` digits. -/
def binary (row : PackedRow) (digits : Nat) : String :=
  let numeral := Nat.toDigits 2 row.toNat
  String.ofList (List.replicate (digits - numeral.length) '0' ++ numeral)

@[simp] theorem ofBits_nil : ofBits [] = 0 := rfl

@[simp] theorem ofBits_cons (b : Bool) (bs : List Bool) :
    ofBits (b :: bs) = b.toNat + 2 * ofBits bs := rfl

@[simp] theorem length_unpack (row : PackedRow) (outputs : Nat) :
    (row.unpack outputs).length = outputs := by
  simp [unpack]

end PackedRow

end VoxelLogic
