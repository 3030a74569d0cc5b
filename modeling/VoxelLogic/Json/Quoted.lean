import VoxelLogic.Json.Bytes

/-!
# Strings of a JSON text

A string is read from behind its opening quote.  It is either decoded or skipped.  Decoding resolves
escapes and demands that surrogates come in pairs and that the result is valid UTF-8; skipping looks
at the form of escapes only and takes all other bytes as they come.  Neither allows control
characters.

* `readQuoted`: the bytes that a string stands for.
* `skipQuoted`: what follows a string.
-/

namespace VoxelLogic.Json

open Text

/-- The bytes that stand for themselves in a string. -/
def isPlain (b : UInt8) : Bool := b != quote && b != backslash && 0x20 ≤ b

/-- Reads four hexadecimal digits. -/
def readHexFour : (source : List UInt8) → Except Fault (Reading Nat source)
  | a :: b :: c :: d :: rest =>
    match hexValue? a, hexValue? b, hexValue? c, hexValue? d with
    | some a, some b, some c, some d =>
      .ok ⟨16 * (16 * (16 * a + b) + c) + d, rest, by simp only [List.length_cons]; omega⟩
    | _, _, _, _ => .error .malformed
  | _ => .error .truncated

/-- The UTF-8 bytes of a code point. -/
def codePoint (n : Nat) : List UInt8 := (String.singleton (Char.ofNat n)).toUTF8.data.toList

/-- Reads what must follow a leading surrogate: an escaped trailing one. -/
def readTrailing : (source : List UInt8) → Except Fault (Reading Nat source)
  | [] => .error .truncated
  | a :: rest =>
    if a = backslash then
      match rest with
      | [] => .error .truncated
      | b :: rest =>
        if b = 0x75 then
          match readHexFour rest with
          | .error fault => .error fault
          | .ok n =>
            if 0xDC00 ≤ n.value ∧ n.value ≤ 0xDFFF then .ok ((n.afterHead b).afterHead a)
            else .error .malformed
        else .error .malformed
    else .error .malformed

/-- Reads a code point that is written as one or two groups of four hexadecimal digits. -/
def readUnicode (source : List UInt8) : Except Fault (Reading (List UInt8) source) :=
  match readHexFour source with
  | .error fault => .error fault
  | .ok n =>
    if 0xDC00 ≤ n.value ∧ n.value ≤ 0xDFFF then .error .malformed
    else if 0xD800 ≤ n.value ∧ n.value ≤ 0xDBFF then
      match readTrailing n.rest with
      | .error fault => .error fault
      | .ok m =>
        .ok ((n.after m).map fun trailing =>
          codePoint (0x10000 + 0x400 * (n.value - 0xD800) + (trailing - 0xDC00)))
    else .ok (n.map codePoint)

/-- The byte that a short escape stands for. -/
def shortEscape? (b : UInt8) : Option UInt8 :=
  if b = quote then some quote
  else if b = backslash then some backslash
  else if b = 0x2F then some 0x2F
  else if b = 0x62 then some 0x08
  else if b = 0x66 then some 0x0C
  else if b = 0x6E then some 0x0A
  else if b = 0x72 then some 0x0D
  else if b = 0x74 then some 0x09
  else none

/-- Reads an escape from behind its backslash. -/
def readEscape : (source : List UInt8) → Except Fault (Reading (List UInt8) source)
  | [] => .error .truncated
  | b :: rest =>
    match shortEscape? b with
    | some c => .ok (.ofHead [c] b rest)
    | none =>
      if b = 0x75 then
        match readUnicode rest with
        | .error fault => .error fault
        | .ok r => .ok (r.afterHead b)
      else .error .malformed

/-- Skips an escape from behind its backslash. -/
def skipEscape : (source : List UInt8) → Except Fault (Reading Unit source)
  | [] => .error .truncated
  | b :: rest =>
    match shortEscape? b with
    | some _ => .ok (.ofHead () b rest)
    | none =>
      if b = 0x75 then
        match readHexFour rest with
        | .error fault => .error fault
        | .ok r => .ok ((r.map fun _ => ()).afterHead b)
      else .error .malformed

/-- Reads up to the closing quote.  The bytes in `read` come before. -/
def readQuotedAfter (source read : List UInt8) :
    (rest : List UInt8) → rest.length ≤ source.length →
      Except Fault (Reading (List UInt8) source)
  | [], _ => .error .truncated
  | b :: rest, h =>
    if isPlain b then readQuotedAfter source (b :: read) rest (Nat.le_of_succ_le h)
    else if b = quote then .ok ⟨read.reverse, rest, h⟩
    else if b = backslash then
      match readEscape rest with
      | .error fault => .error fault
      | .ok r =>
        readQuotedAfter source (r.value.reverse ++ read) r.rest
          (Nat.le_trans (Nat.le_of_lt r.shorter) (Nat.le_of_succ_le h))
    else .error .malformed
termination_by rest => rest.length
decreasing_by
  · exact Nat.lt_succ_self _
  · exact Nat.lt_succ_of_lt r.shorter

/-- Decodes a string from behind its opening quote. -/
def readQuoted (source : List UInt8) : Except Fault (Reading (List UInt8) source) :=
  match readQuotedAfter source [] source (length_le_self source) with
  | .error fault => .error fault
  | .ok r => if (String.fromUTF8? r.value.toByteArray).isSome then .ok r else .error .malformed

/-- Skips up to the closing quote. -/
def skipQuotedAfter (source : List UInt8) :
    (rest : List UInt8) → rest.length ≤ source.length → Except Fault (Reading Unit source)
  | [], _ => .error .truncated
  | b :: rest, h =>
    if isPlain b then skipQuotedAfter source rest (Nat.le_of_succ_le h)
    else if b = quote then .ok ⟨(), rest, h⟩
    else if b = backslash then
      match skipEscape rest with
      | .error fault => .error fault
      | .ok r =>
        skipQuotedAfter source r.rest
          (Nat.le_trans (Nat.le_of_lt r.shorter) (Nat.le_of_succ_le h))
    else .error .malformed
termination_by rest => rest.length
decreasing_by
  · exact Nat.lt_succ_self _
  · exact Nat.lt_succ_of_lt r.shorter

/-- Skips a string from behind its opening quote. -/
def skipQuoted (source : List UInt8) : Except Fault (Reading Unit source) :=
  skipQuotedAfter source source (length_le_self source)

end VoxelLogic.Json
