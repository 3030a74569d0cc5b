import VoxelLogic.Proofs.PackedRow
import Mathlib.Data.Nat.Init

/-!
# Rows as binary numerals

A row is also told by its numeral.  Written in binary, with zeros in front up to its width, and then
reversed, it shows the sentinel first and then the outputs in their order.  So outputs are stored by
writing a clear sentinel and the outputs one after the other, reversing that, and reading it in base
two.

* `IsBinary`: a binary numeral with zeros in front of it.
* `padded_toDigits`: a numeral that is filled with zeros shows the bits of its number from the back.
* `toList_binary`, `toList_binary_width`, `isBinary_binary`: the numeral of a row.
* `ofDigitChars_bits`, `isBinary_bits`, `toNat_pack`: the number that a numeral of bits is read as.
* `pack_unpack_numeral`: storing and reading outputs by numerals.
-/

namespace VoxelLogic.PackedRow

/-- The binary digit of a bit. -/
def bitDigit (b : Bool) : Char := if b then '1' else '0'

theorem bitDigit_eq_zero_or_one (b : Bool) : bitDigit b = '0' ∨ bitDigit b = '1' := by
  cases b
  · exact .inl rfl
  · exact .inr rfl

/-- The digits are the binary numeral of a number, with zeros in front of it up to a width. -/
structure IsBinary (digits : List Char) (width n : Nat) : Prop where
  length_eq : digits.length = width
  eq_zero_or_one : ∀ c ∈ digits, c = '0' ∨ c = '1'
  ofDigitChars_eq : Nat.ofDigitChars 2 digits 0 = n

/-! ## Numbers written in binary -/

theorem digitChar_mod_two (n : Nat) : (n % 2).digitChar = bitDigit (n.testBit 0) := by
  rw [Nat.testBit_zero]
  rcases Nat.mod_two_eq_zero_or_one n with h | h <;> rw [h] <;> rfl

/-- The bits of a number, most significant first, are those of its half and then its lowest bit. -/
theorem reverse_bits_succ (digits n : Nat) :
    ((List.range (digits + 1)).map fun i => bitDigit (n.testBit i)).reverse =
      ((List.range digits).map fun i => bitDigit ((n / 2).testBit i)).reverse ++
        [bitDigit (n.testBit 0)] := by
  rw [List.range_succ_eq_map, List.map_cons, List.reverse_cons, List.map_map]
  simp only [Function.comp_def, Nat.testBit_succ]

/-- **A numeral that is filled with zeros shows the bits of its number**, most significant first. -/
theorem padded_toDigits {digits n : Nat} (hpos : 1 ≤ digits) (h : n < 2 ^ digits) :
    List.replicate (digits - (Nat.toDigits 2 n).length) '0' ++ Nat.toDigits 2 n =
      ((List.range digits).map fun i => bitDigit (n.testBit i)).reverse := by
  induction digits, hpos using Nat.le_induction generalizing n with
  | base =>
    have hn : n < 2 := h
    rw [Nat.toDigits_of_lt_base hn, reverse_bits_succ, ← digitChar_mod_two, Nat.mod_eq_of_lt hn]
    rfl
  | succ digits hpos ih =>
    have hhalf : n / 2 < 2 ^ digits := by omega
    rw [reverse_bits_succ, ← ih hhalf, ← digitChar_mod_two]
    rcases Nat.lt_or_ge n 2 with hn | hn
    · -- a single digit: the numeral of its half is the zero that stands in front of it
      have hzero : n / 2 = 0 := Nat.div_eq_of_lt hn
      obtain ⟨zeros, rfl⟩ := Nat.exists_eq_add_of_le' hpos
      rw [Nat.toDigits_of_lt_base hn, hzero, Nat.toDigits_zero, Nat.mod_eq_of_lt hn]
      simp only [List.length_singleton, Nat.add_sub_cancel, List.replicate_succ']
    · have hlength : (Nat.toDigits 2 n).length = (Nat.toDigits 2 (n / 2)).length + 1 := by
        rw [Nat.toDigits_of_base_le (by decide) hn, List.length_append, List.length_singleton]
      rw [hlength, Nat.add_sub_add_right, Nat.toDigits_of_base_le (by decide) hn,
        List.append_assoc]

/-! ## Rows written in binary -/

section Written

variable {row : PackedRow} {outputs digits : Nat}

/-- The numeral of a row shows its bits, most significant first. -/
theorem toList_binary (hpos : 1 ≤ digits) (h : row.toNat < 2 ^ digits) :
    (row.binary digits).toList =
      ((List.range digits).map fun i => bitDigit (row.getLsbD i)).reverse := by
  rw [binary, String.toList_ofList]
  exact padded_toDigits hpos h

/-- The numeral of a row that fits shows its outputs from the back, and the sentinel at the end. -/
theorem toList_binary_width (h : row.toNat < 2 ^ (outputs + 1)) :
    (row.binary (width outputs)).toList =
      ((row.getLsbD 0 :: row.unpack outputs).map bitDigit).reverse := by
  rw [width, toList_binary (Nat.le_add_left 1 outputs) h, List.range_succ_eq_map, List.map_cons,
    List.map_map, List.map_cons, unpack, List.map_map]
  rfl

/-- The numeral of a row is read as the row. -/
theorem ofDigitChars_binary (row : PackedRow) (digits : Nat) :
    Nat.ofDigitChars 2 (row.binary digits).toList 0 = row.toNat := by
  rw [binary, String.toList_ofList, Nat.ofDigitChars_append, Nat.ofDigitChars_replicate_zero,
    Nat.mul_zero, Nat.ofDigitChars_toDigits (by decide) (by decide)]

/-- The numeral of a row that fits its digits is the binary numeral of the row. -/
theorem isBinary_binary (hpos : 1 ≤ digits) (h : row.toNat < 2 ^ digits) :
    IsBinary (row.binary digits).toList digits row.toNat := by
  have hbits := toList_binary hpos h
  refine ⟨?_, fun c hc => ?_, ofDigitChars_binary row digits⟩
  · rw [hbits, List.length_reverse, List.length_map, List.length_range]
  · rw [hbits, List.mem_reverse] at hc
    obtain ⟨i, -, rfl⟩ := List.mem_map.1 hc
    exact bitDigit_eq_zero_or_one _

end Written

/-! ## Numerals read as rows -/

theorem ofBits_lt (bits : List Bool) : ofBits bits < 2 ^ bits.length := by
  induction bits with
  | nil => decide
  | cons b bits ih =>
    have hb : b.toNat ≤ 1 := Bool.toNat_le b
    rw [ofBits_cons, List.length_cons, Nat.pow_succ]
    omega

/-- Bits that are written from the back are read as their number. -/
theorem ofDigitChars_bits (bits : List Bool) :
    Nat.ofDigitChars 2 (bits.map bitDigit).reverse 0 = ofBits bits := by
  induction bits with
  | nil => rfl
  | cons b bits ih =>
    have hdigit : (bitDigit b).toNat - '0'.toNat = b.toNat := by cases b <;> rfl
    rw [List.map_cons, List.reverse_cons, Nat.ofDigitChars_append, ih, Nat.ofDigitChars_cons,
      Nat.ofDigitChars_nil, hdigit, ofBits_cons, Nat.add_comm]

/-- Bits that are written from the back are the numeral of their number. -/
theorem isBinary_bits (bits : List Bool) :
    IsBinary (bits.map bitDigit).reverse bits.length (ofBits bits) where
  length_eq := by rw [List.length_reverse, List.length_map]
  eq_zero_or_one := by
    intro c hc
    obtain ⟨b, -, rfl⟩ := List.mem_map.1 (List.mem_reverse.1 hc)
    exact bitDigit_eq_zero_or_one b
  ofDigitChars_eq := ofDigitChars_bits bits

/-- A stored row is the number of its outputs above a clear sentinel. -/
theorem toNat_pack {bits : List Bool} (h : bits.length < 64) :
    (pack bits).toNat = ofBits (false :: bits) := by
  have hlt := ofBits_lt (false :: bits)
  have hword : 2 ^ (false :: bits).length ≤ 2 ^ 64 := Nat.pow_le_pow_right (by decide) h
  have hzero : ofBits (false :: bits) = 2 * ofBits bits := Nat.zero_add _
  rw [pack, BitVec.toNat_ofNat, ← hzero, Nat.mod_eq_of_lt (Nat.lt_of_lt_of_le hlt hword)]

/-! ## What is stored of what was read -/

/-- The outputs that are read from any row are stored with the sentinel and the bits above them
clear. -/
theorem getLsbD_pack_unpack (row : PackedRow) {outputs : Nat} (h : outputs ≤ 63) (i : Nat) :
    (pack (row.unpack outputs)).getLsbD i =
      (decide (1 ≤ i ∧ i ≤ outputs) && row.getLsbD i) := by
  cases i with
  | zero => rw [sentinel_pack]; rfl
  | succ k =>
    have hlt : (row.unpack outputs).length < 64 := by
      rw [length_unpack]
      omega
    show (pack (row.unpack outputs)).output k =
      (decide (1 ≤ k + 1 ∧ k + 1 ≤ outputs) && row.output k)
    rw [output_pack hlt, getElem?_unpack]
    by_cases hk : k < outputs
    · have hplace : 1 ≤ k + 1 ∧ k + 1 ≤ outputs := by omega
      rw [if_pos hk, decide_eq_true hplace, Bool.true_and, Option.getD_some]
    · have hplace : ¬ (1 ≤ k + 1 ∧ k + 1 ≤ outputs) := by omega
      rw [if_neg hk, decide_eq_false hplace, Bool.false_and, Option.getD_none]

/-- **Rows by numerals.**  Up to 63 outputs are stored as the number that is read in base two from a
clear sentinel and the outputs, written in this order and then reversed, and they are read back from
it.  The outputs of a row that fits are the digits of its numeral, filled with zeros to one digit
more than there are outputs, in reverse and without the first.  What is read from any row is stored
as the row with its sentinel and all bits above the outputs cleared. -/
theorem pack_unpack_numeral :
    (∀ bits : List Bool, bits.length ≤ 63 → ∃ row, pack? bits = some row ∧
      row.toNat = Nat.ofDigitChars 2 ((false :: bits).map bitDigit).reverse 0 ∧
      row.unpack bits.length = bits) ∧
    (∀ (row : PackedRow) (outputs : Nat), row.toNat < 2 ^ (outputs + 1) →
      IsBinary (row.binary (outputs + 1)).toList (outputs + 1) row.toNat ∧
      (row.unpack outputs).map bitDigit = (row.binary (outputs + 1)).toList.reverse.tail) ∧
    ∀ (row : PackedRow) (outputs : Nat), outputs ≤ 63 →
      ∃ packed, pack? (row.unpack outputs) = some packed ∧
        ∀ i, packed.getLsbD i = (decide (1 ≤ i ∧ i ≤ outputs) && row.getLsbD i) := by
  refine ⟨fun bits h => ?_, fun row outputs h => ?_, fun row outputs h => ?_⟩
  · have hlt : bits.length < 64 := Nat.lt_succ_of_le h
    refine ⟨pack bits, if_pos hlt, ?_, unpack_pack hlt⟩
    rw [toNat_pack hlt, ofDigitChars_bits]
  · have hnumeral := toList_binary_width h
    rw [width] at hnumeral
    refine ⟨isBinary_binary (Nat.le_add_left 1 outputs) h, ?_⟩
    rw [hnumeral, List.reverse_reverse, List.map_cons, List.tail_cons]
  · have hlt : (row.unpack outputs).length < 64 := by
      rw [length_unpack]
      omega
    exact ⟨_, if_pos hlt, getLsbD_pack_unpack row h⟩

/-- The last of 63 outputs is the first digit of a numeral as long as the word, and of a full word
two outputs are kept. -/
theorem pack_unpack_numeral_full :
    (∃ row, pack? (List.replicate 62 false ++ [true]) = some row ∧
      row.toNat = Nat.ofDigitChars 2 ('1' :: List.replicate 63 '0') 0 ∧
      row.unpack 63 = List.replicate 62 false ++ [true]) ∧
    (unpack 9223372036854775813 63).map bitDigit =
      (binary 9223372036854775813 64).toList.reverse.tail ∧
    pack? (unpack 18446744073709551615 2) = some 6 := by
  obtain ⟨hpack, hunpack, hkept⟩ := pack_unpack_numeral
  refine ⟨hpack (List.replicate 62 false ++ [true]) (by decide),
    (hunpack 9223372036854775813 63 (by decide)).2, ?_⟩
  obtain ⟨packed, hpacked, hbits⟩ := hkept 18446744073709551615 2 (by decide)
  have hsix : packed = 6 := BitVec.eq_of_getLsbD_eq fun i hi => by
    rw [hbits i]
    revert i
    decide
  rw [hpacked, hsix]

end VoxelLogic.PackedRow
