import VoxelLogic.Json.Numeral
import VoxelLogic.Json.Quoted

/-!
# Numbers and arrays that are asked for

A value is read with a kind in mind.  A value of another kind is refused as `Fault.mistyped` once it
is clear which kind it has: a word, a number or a string after it has been read to its end, an array
or an object at its first byte.

* `readNatural`: a natural number up to a bound.
* `readArray`: an array of values of one kind.
-/

namespace VoxelLogic.Json

open Text

/-- The fault of a value that is not of the kind asked for and starts with the byte `b`. -/
def mismatch (b : UInt8) (rest : List UInt8) : Fault :=
  match wordAfter? b with
  | some word =>
    match readWord word rest with
    | .error fault => fault
    | .ok _ => .mistyped
  | none =>
    if b = quote then
      match readQuoted rest with
      | .error fault => fault
      | .ok _ => .mistyped
    else if b = minus ∨ isDigit b then
      match readNumber (b :: rest) with
      | .error fault => fault
      | .ok _ => .mistyped
    else if b = arrayStart ∨ b = objectStart then .mistyped
    else .malformed

/-- Reads a natural number that is at most `largest`. -/
def readNatural (largest : Nat) (source : List UInt8) : Except Fault (Reading Nat source) :=
  match next? source with
  | none => .error .truncated
  | some b =>
    if b.value = minus ∨ isDigit b.value then
      match readNumber (b.value :: b.rest) with
      | .error fault => .error fault
      | .ok r =>
        match r.value.natural? with
        | none => .error .mistyped
        | some n =>
          if n ≤ largest then
            .ok ⟨n, r.rest, Nat.lt_of_lt_of_le r.shorter b.shorter⟩
          else .error .mistyped
    else .error (mismatch b.value b.rest)

variable {α : Type}

/-- Reads the members of an array after those in `read`, up to the closing bracket. -/
def readMembersAfter (member : (source : List UInt8) → Except Fault (Reading α source))
    (source : List UInt8) (read : List α) (rest : List UInt8)
    (h : rest.length ≤ source.length) : Except Fault (Reading (List α) source) :=
  match next? rest with
  | none => .error .truncated
  | some b =>
    if b.value = arrayEnd then .ok ⟨read.reverse, b.rest, Nat.lt_of_lt_of_le b.shorter h⟩
    else if b.value = comma then
      match next? b.rest with
      | none => .error .truncated
      | some c =>
        if c.value = arrayEnd then .error .malformed
        else
          match member b.rest with
          | .error fault => .error fault
          | .ok r =>
            readMembersAfter member source (r.value :: read) r.rest
              (Nat.le_trans (Nat.le_of_lt (Nat.lt_trans r.shorter b.shorter)) h)
    else .error .malformed
termination_by rest.length
decreasing_by
  exact Nat.lt_trans r.shorter b.shorter

/-- Reads the members of an array from behind its opening bracket. -/
def readMembers (member : (source : List UInt8) → Except Fault (Reading α source))
    (source : List UInt8) : Except Fault (Reading (List α) source) :=
  match next? source with
  | none => .error .truncated
  | some b =>
    if b.value = arrayEnd then .ok ⟨[], b.rest, b.shorter⟩
    else
      match member source with
      | .error fault => .error fault
      | .ok r => readMembersAfter member source [r.value] r.rest (Nat.le_of_lt r.shorter)

/-- Reads an array. -/
def readArray (member : (source : List UInt8) → Except Fault (Reading α source))
    (source : List UInt8) : Except Fault (Reading (List α) source) :=
  match next? source with
  | none => .error .truncated
  | some b =>
    if b.value = arrayStart then
      match readMembers member b.rest with
      | .error fault => .error fault
      | .ok r => .ok ⟨r.value, r.rest, Nat.lt_trans r.shorter b.shorter⟩
    else .error (mismatch b.value b.rest)

end VoxelLogic.Json
