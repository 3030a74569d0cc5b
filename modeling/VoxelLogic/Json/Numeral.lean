import VoxelLogic.Json.Bytes

/-!
# Numbers of a JSON text

A number is read in two steps: its form, and then its value.

The form is an optional minus sign, digits without a needless leading zero, and optional fraction
and exponent.  `Numeral` keeps the three runs of digits.

A number without fraction and exponent that is not negative and fits 64 bits is a natural number.
Any other number is taken as a 64-bit floating-point number, and is malformed if it is too large for
one.  Its leading digits are collected while they fit 64 bits, the others count as powers of ten,
both factors are rounded to 53 bits, and so is their product.

* `readNumeral`: the form of a number.
* `Numeral.natural?`, `Numeral.isFinite`: its value.
* `readNumber`: a number whose value is looked at.
-/

namespace VoxelLogic.Json

open Text

/-! ## Form -/

/-- The digits of a number. -/
structure Numeral where
  negative : Bool
  whole : List UInt8
  fraction : Option (List UInt8)
  /-- Whether the exponent is negative, and its digits. -/
  exponent : Option (Bool × List UInt8)
  deriving DecidableEq, Repr

/-- Reads digits, of which there must be one.  A text that ends before it gives `atEnd`. -/
def readDigits (atEnd : Fault) (source : List UInt8) :
    Except Fault (Reading (List UInt8) source) :=
  match h : source.takeWhile isDigit with
  | [] =>
    match source with
    | [] => .error atEnd
    | _ :: _ => .error .malformed
  | d :: ds =>
    .ok ⟨d :: ds, source.dropWhile isDigit, by
      have hlen := congrArg List.length
        (@List.takeWhile_append_dropWhile _ isDigit source)
      rw [h, List.length_append, List.length_cons] at hlen
      omega⟩

/-- Reads the digits of a number before its fraction. -/
def readWhole (atEnd : Fault) (source : List UInt8) :
    Except Fault (Reading (List UInt8) source) :=
  match readDigits atEnd source with
  | .error fault => .error fault
  | .ok r =>
    match r.value with
    | d :: _ :: _ => if d = zeroDigit then .error .malformed else .ok r
    | _ => .ok r

/-- Reads a fraction if there is one. -/
def readFraction (atEnd : Fault) :
    (source : List UInt8) → Except Fault (OptionalReading (Option (List UInt8)) source)
  | [] => .ok ⟨none, [], length_le_self []⟩
  | b :: rest =>
    if b = point then
      match readDigits atEnd rest with
      | .error fault => .error fault
      | .ok r => .ok ⟨some r.value, r.rest, Nat.le_succ_of_le (Nat.le_of_lt r.shorter)⟩
    else .ok ⟨none, b :: rest, length_le_self (b :: rest)⟩

/-- Reads the sign of an exponent if there is one. -/
def readExponentSign : (source : List UInt8) → OptionalReading Bool source
  | [] => ⟨false, [], length_le_self []⟩
  | b :: rest =>
    if b = plus then ⟨false, rest, Nat.le_succ _⟩
    else if b = minus then ⟨true, rest, Nat.le_succ _⟩
    else ⟨false, b :: rest, length_le_self (b :: rest)⟩

/-- Reads an exponent if there is one. -/
def readExponent (atEnd : Fault) :
    (source : List UInt8) → Except Fault (OptionalReading (Option (Bool × List UInt8)) source)
  | [] => .ok ⟨none, [], length_le_self []⟩
  | b :: rest =>
    if b = 0x65 ∨ b = 0x45 then
      let sign := readExponentSign rest
      match readDigits atEnd sign.rest with
      | .error fault => .error fault
      | .ok r =>
        .ok ⟨some (sign.value, r.value), r.rest,
          Nat.le_succ_of_le (Nat.le_trans (Nat.le_of_lt r.shorter) sign.length_le)⟩
    else .ok ⟨none, b :: rest, length_le_self (b :: rest)⟩

/-- Reads a number from its first digit on. -/
def readUnsigned (atEnd : Fault) (negative : Bool) (source : List UInt8) :
    Except Fault (Reading Numeral source) :=
  match readWhole atEnd source with
  | .error fault => .error fault
  | .ok whole =>
    match readFraction atEnd whole.rest with
    | .error fault => .error fault
    | .ok fraction =>
      match readExponent atEnd fraction.rest with
      | .error fault => .error fault
      | .ok exponent =>
        .ok ⟨⟨negative, whole.value, fraction.value, exponent.value⟩, exponent.rest,
          Nat.lt_of_le_of_lt (Nat.le_trans exponent.length_le fraction.length_le) whole.shorter⟩

/-- Reads a number from its minus sign or first digit on.  A text that ends where a digit must
stand gives `atEnd`. -/
def readNumeral (atEnd : Fault) : (source : List UInt8) → Except Fault (Reading Numeral source)
  | [] => .error atEnd
  | b :: rest =>
    if b = minus then
      match readUnsigned atEnd true rest with
      | .error fault => .error fault
      | .ok r => .ok (r.afterHead b)
    else readUnsigned atEnd false (b :: rest)

/-! ## Value -/

/-- The number that digits make after a number `n`. -/
def digitsAfter (n : Nat) (digits : List UInt8) : Nat :=
  digits.foldl (fun n d => 10 * n + digitValue d) n

/-- Appends digits to a number as long as it fits 64 bits, and returns the digits left over. -/
def absorb (n : Nat) : List UInt8 → Nat × List UInt8
  | [] => (n, [])
  | d :: ds =>
    if 10 * n + digitValue d < UInt64.size then absorb (10 * n + digitValue d) ds else (n, d :: ds)

/-- Rounds a number to 53 significant bits, a tie to the even neighbour. -/
def round53 (n : Nat) : Nat :=
  if n < Nat.pow 2 53 then n
  else
    let unit := 1 <<< (Nat.log2 n - 52)
    let quotient := n / unit
    let remainder := n % unit
    if unit < 2 * remainder ∨ (2 * remainder = unit ∧ quotient % 2 = 1) then
      (quotient + 1) * unit
    else quotient * unit

namespace Numeral

/-- The digits of the fraction. -/
def fractionDigits (n : Numeral) : List UInt8 := n.fraction.getD []

/-- The leading digits that fit 64 bits. -/
def significand (n : Numeral) : Nat := (absorb (absorb 0 n.whole).1 n.fractionDigits).1

/-- The value of the exponent. -/
def writtenExponent (n : Numeral) : Int :=
  match n.exponent with
  | none => 0
  | some (false, digits) => digitsAfter 0 digits
  | some (true, digits) => -(digitsAfter 0 digits : Int)

/-- The power of ten that the significand is to be multiplied with. -/
def scale (n : Numeral) : Int :=
  let whole := absorb 0 n.whole
  let used := n.fractionDigits.length - (absorb whole.1 n.fractionDigits).2.length
  n.writtenExponent + whole.2.length - used

/-- Whether the number is in the range of 64-bit floating-point numbers.  A product that is rounded
to 53 bits leaves it at `2 ^ 1024 - 2 ^ 970`, halfway between the largest number and the next. -/
def isFinite (n : Numeral) : Bool :=
  n.significand == 0 || n.scale < 0 ||
    (n.scale ≤ 308 &&
      round53 n.significand * round53 (Nat.pow 10 n.scale.toNat) <
        Nat.pow 2 1024 - Nat.pow 2 970)

/-- The value of a natural number of 64 bits. -/
def natural? (n : Numeral) : Option Nat :=
  if n.negative = false ∧ n.fraction = none ∧ n.exponent = none ∧ (absorb 0 n.whole).2 = [] then
    some (absorb 0 n.whole).1
  else none

end Numeral

/-- Reads a number and looks at its value. -/
def readNumber (source : List UInt8) : Except Fault (Reading Numeral source) :=
  match readNumeral .truncated source with
  | .error fault => .error fault
  | .ok r => if r.value.isFinite then .ok r else .error .malformed

end VoxelLogic.Json
