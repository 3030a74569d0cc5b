import VoxelLogic.Json.Array
import VoxelLogic.Json.Skip
import VoxelLogic.Record.Field

/-!
# Reading records

A record is stored as a JSON object with five named fields in any order, or as an array of the five
values.  Fields with other names are skipped.  The text is read once, from left to right, and the
first thing that is wrong with it is reported: a field that comes twice at its second name, a
missing field at the closing brace.
-/

namespace VoxelLogic.Record

open Json Text

/-- Reads the value of a field into a draft. -/
def readField (d : Draft) (f : Field) (source : List UInt8) :
    Except Fault (Reading Draft source) :=
  match f with
  | .inputRemap =>
    (readArray (readNatural (UInt32.size - 1)) source).map fun r =>
      r.map fun ns => { d with inputRemap := some (ns.map UInt32.ofNat) }
  | .outputRemap =>
    (readArray (readNatural (UInt32.size - 1)) source).map fun r =>
      r.map fun ns => { d with outputRemap := some (ns.map UInt32.ofNat) }
  | .inputTypes =>
    (readArray (readNatural (UInt8.size - 1)) source).map fun r =>
      r.map fun ns => { d with inputTypes := some (ns.map UInt8.ofNat) }
  | .outputTypes =>
    (readArray (readNatural (UInt8.size - 1)) source).map fun r =>
      r.map fun ns => { d with outputTypes := some (ns.map UInt8.ofNat) }
  | .groups =>
    (readArray (readArray (readNatural (UInt64.size - 1))) source).map fun r =>
      r.map fun groups => { d with groups := some (groups.map (List.map (BitVec.ofNat 64))) }

/-! ## Objects -/

/-- Reads the colon after a name. -/
def readColon (source : List UInt8) : Except Fault (Reading Unit source) :=
  match next? source with
  | none => .error .truncated
  | some b => if b.value = colon then .ok (b.map fun _ => ()) else .error .malformed

/-- Reads the value that belongs to a name, from its colon on.  A name that is no field has any
value. -/
def readNamed (d : Draft) (name : String) (source : List UInt8) :
    Except Fault (Reading Draft source) :=
  match Field.ofName? name with
  | some f =>
    if d.has f then .error .mistyped
    else
      match readColon source with
      | .error fault => .error fault
      | .ok c => (readField d f c.rest).map c.after
  | none =>
    match readColon source with
    | .error fault => .error fault
    | .ok c => (skip c.rest).map fun r => c.after (r.map fun _ => d)

/-- Reads a name and its value.  The name is read from behind its opening quote. -/
def readPair (d : Draft) (source : List UInt8) : Except Fault (Reading Draft source) :=
  match readQuoted source with
  | .error fault => .error fault
  | .ok bytes =>
    match String.fromUTF8? bytes.value.toByteArray with
    | none => .error .malformed
    | some name => (readNamed d name bytes.rest).map bytes.after

/-- Reads the members of an object after some that are in the draft, up to the closing brace. -/
def readPairsAfter (source : List UInt8) (d : Draft) (rest : List UInt8)
    (h : rest.length ≤ source.length) : Except Fault (Reading Record source) :=
  match next? rest with
  | none => .error .truncated
  | some b =>
    if b.value = objectEnd then
      match d.record? with
      | none => .error .mistyped
      | some record => .ok ⟨record, b.rest, Nat.lt_of_lt_of_le b.shorter h⟩
    else if b.value = comma then
      match next? b.rest with
      | none => .error .truncated
      | some c =>
        if c.value = quote then
          match readPair d c.rest with
          | .error fault => .error fault
          | .ok r =>
            readPairsAfter source r.value r.rest
              (Nat.le_trans
                (Nat.le_of_lt (Nat.lt_trans r.shorter (Nat.lt_trans c.shorter b.shorter))) h)
        else .error .malformed
    else .error .malformed
termination_by rest.length
decreasing_by
  exact Nat.lt_trans r.shorter (Nat.lt_trans c.shorter b.shorter)

/-- Reads an object from behind its opening brace. -/
def readObject (source : List UInt8) : Except Fault (Reading Record source) :=
  match next? source with
  | none => .error .truncated
  | some b =>
    if b.value = objectEnd then .error .mistyped
    else if b.value = quote then
      match readPair .empty b.rest with
      | .error fault => .error fault
      | .ok r =>
        readPairsAfter source r.value r.rest (Nat.le_of_lt (Nat.lt_trans r.shorter b.shorter))
    else .error .malformed

/-! ## Arrays of the five values -/

/-- Reads the values of further fields, each from its comma on, and the closing bracket. -/
def readValuesAfter (d : Draft) :
    List Field → (source : List UInt8) → Except Fault (Reading Draft source)
  | [], source =>
    match next? source with
    | none => .error .truncated
    | some b => if b.value = arrayEnd then .ok (b.map fun _ => d) else .error .malformed
  | f :: fs, source =>
    match next? source with
    | none => .error .truncated
    | some b =>
      if b.value = arrayEnd then .error .mistyped
      else if b.value = comma then
        match next? b.rest with
        | none => .error .truncated
        | some c =>
          if c.value = arrayEnd then .error .malformed
          else
            match readField d f b.rest with
            | .error fault => .error fault
            | .ok r => (readValuesAfter r.value fs r.rest).map (b.after r).after
      else .error .malformed

/-- Reads the five values in their order, from behind the opening bracket. -/
def readValues (source : List UInt8) : Except Fault (Reading Record source) :=
  match next? source with
  | none => .error .truncated
  | some b =>
    if b.value = arrayEnd then .error .mistyped
    else
      match readField .empty .inputRemap source with
      | .error fault => .error fault
      | .ok first =>
        match readValuesAfter first.value Field.all.tail first.rest with
        | .error fault => .error fault
        | .ok r =>
          match r.value.record? with
          | none => .error .mistyped
          | some record => .ok (first.after (r.map fun _ => record))

/-! ## Texts -/

/-- Reads a record in either form. -/
def readRecord (source : List UInt8) : Except Fault (Reading Record source) :=
  match next? source with
  | none => .error .truncated
  | some b =>
    if b.value = objectStart then (readObject b.rest).map b.after
    else if b.value = arrayStart then (readValues b.rest).map b.after
    else .error (mismatch b.value b.rest)

/-- The record that a text holds.  Nothing but blanks may follow it. -/
def ofJson (content : List UInt8) : Except Fault Record :=
  match readRecord content with
  | .error fault => .error fault
  | .ok r =>
    match next? r.rest with
    | none => .ok r.value
    | some _ => .error .malformed

end VoxelLogic.Record
