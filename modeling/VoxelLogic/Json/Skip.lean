import VoxelLogic.Json.Numeral
import VoxelLogic.Json.Quoted

/-!
# Skipping values of a JSON text

A value that nothing asks for is skipped whatever it is.  Its form must be right, but its strings
are not decoded and its numbers may be of any size.  Arrays and objects that are open are kept in a
list, innermost first, so that values may be nested to any depth.

Three states follow each other: a value is due (`skipValue`), a value has just ended (`skipMore`),
and a name is due (`skipName`).
-/

namespace VoxelLogic.Json

open Text

/-- What is open around a value. -/
inductive Bracket where
  | array
  | object
  deriving DecidableEq, Repr

/-- Skips a value that is neither an array nor an object and starts with the byte `b`. -/
def skipScalar (b : UInt8) (rest : List UInt8) : Except Fault (OptionalReading Unit rest) :=
  match wordAfter? b with
  | some word => readWord word rest
  | none =>
    if b = quote then
      match skipQuoted rest with
      | .error fault => .error fault
      | .ok r => .ok ⟨(), r.rest, Nat.le_of_lt r.shorter⟩
    else if b = minus ∨ isDigit b then
      match readNumeral .malformed (b :: rest) with
      | .error fault => .error fault
      | .ok r => .ok ⟨(), r.rest, Nat.le_of_lt_succ r.shorter⟩
    else .error .malformed

mutual

/-- Skips a value and what is open around it. -/
def skipValue (source : List UInt8) (opened : List Bracket) (rest : List UInt8)
    (h : rest.length ≤ source.length) : Except Fault (Reading Unit source) :=
  match next? rest with
  | none => .error .truncated
  | some b =>
    if b.value = arrayStart then
      match next? b.rest with
      | none => .error .truncated
      | some c =>
        if c.value = arrayEnd then
          skipMore source opened c.rest
            (Nat.lt_of_lt_of_le (Nat.lt_trans c.shorter b.shorter) h)
        else
          skipValue source (.array :: opened) b.rest (Nat.le_trans (Nat.le_of_lt b.shorter) h)
    else if b.value = objectStart then
      match next? b.rest with
      | none => .error .truncated
      | some c =>
        if c.value = objectEnd then
          skipMore source opened c.rest
            (Nat.lt_of_lt_of_le (Nat.lt_trans c.shorter b.shorter) h)
        else
          skipName source (.object :: opened) b.rest (Nat.le_trans (Nat.le_of_lt b.shorter) h)
    else
      match skipScalar b.value b.rest with
      | .error fault => .error fault
      | .ok r =>
        skipMore source opened r.rest
          (Nat.lt_of_lt_of_le (Nat.lt_of_le_of_lt r.length_le b.shorter) h)
termination_by rest.length
decreasing_by
  · exact Nat.lt_trans c.shorter b.shorter
  · exact b.shorter
  · exact Nat.lt_trans c.shorter b.shorter
  · exact b.shorter
  · exact Nat.lt_of_le_of_lt r.length_le b.shorter

/-- Skips what is open around a value that has ended. -/
def skipMore (source : List UInt8) (opened : List Bracket) (rest : List UInt8)
    (h : rest.length < source.length) : Except Fault (Reading Unit source) :=
  match opened with
  | [] => .ok ⟨(), rest, h⟩
  | .array :: outer =>
    match next? rest with
    | none => .error .truncated
    | some b =>
      if b.value = comma then
        skipValue source opened b.rest (Nat.le_of_lt (Nat.lt_trans b.shorter h))
      else if b.value = arrayEnd then skipMore source outer b.rest (Nat.lt_trans b.shorter h)
      else .error .malformed
  | .object :: outer =>
    match next? rest with
    | none => .error .truncated
    | some b =>
      if b.value = comma then
        skipName source opened b.rest (Nat.le_of_lt (Nat.lt_trans b.shorter h))
      else if b.value = objectEnd then skipMore source outer b.rest (Nat.lt_trans b.shorter h)
      else .error .malformed
termination_by rest.length
decreasing_by
  all_goals exact b.shorter

/-- Skips a name, its colon, its value, and what is open around them. -/
def skipName (source : List UInt8) (opened : List Bracket) (rest : List UInt8)
    (h : rest.length ≤ source.length) : Except Fault (Reading Unit source) :=
  match next? rest with
  | none => .error .truncated
  | some b =>
    if b.value = quote then
      match skipQuoted b.rest with
      | .error fault => .error fault
      | .ok name =>
        match next? name.rest with
        | none => .error .truncated
        | some c =>
          if c.value = colon then
            skipValue source opened c.rest
              (Nat.le_trans
                (Nat.le_of_lt (Nat.lt_trans c.shorter (Nat.lt_trans name.shorter b.shorter))) h)
          else .error .malformed
    else .error .malformed
termination_by rest.length
decreasing_by
  exact Nat.lt_trans c.shorter (Nat.lt_trans name.shorter b.shorter)

end

/-- Skips one value. -/
def skip (source : List UInt8) : Except Fault (Reading Unit source) :=
  skipValue source [] source (length_le_self source)

end VoxelLogic.Json
