import VoxelLogic.Text.Capitals
import VoxelLogic.Text.Numeral

/-!
# Written numbers

One or more digits are read as a number, and nothing else is (`ofDecimal?_eq_some_iff`).  A number
that is written in decimal digits reads as itself (`ofDecimal?_toString`), and is written in digits
only (`isDigit_of_mem_toString`), which no change of letter case touches (`capitals_of_isDigit`).
Numerals and hexadecimal digits are read from their capitals (`ofDecimal?_capitals`,
`HexDigit.ofChar?_toUpper`).
-/

namespace VoxelLogic.Text

theorem toList_toString (n : Nat) : (toString n).toList = Nat.toDigits 10 n := by
  rw [Nat.toString_eq_ofList_toDigits, String.toList_ofList]

/-- A number is written in digits. -/
theorem isDigit_of_mem_toString {n : Nat} {c : Char} (h : c ∈ (toString n).toList) :
    c.isDigit = true := by
  rw [toList_toString] at h
  exact Nat.isDigit_of_mem_toDigits (by decide) (by decide) h

theorem toList_toString_ne_nil (n : Nat) : (toString n).toList ≠ [] := by
  rw [toList_toString]
  exact Nat.toDigits_ne_nil

/-- Digits are read as the number that they stand for. -/
theorem ofDecimalAfter?_of_isDigit {cs : List Char} (h : ∀ c ∈ cs, c.isDigit = true) (value : Nat) :
    ofDecimalAfter? value cs = some (Nat.ofDigitChars 10 cs value) := by
  induction cs generalizing value with
  | nil => rfl
  | cons c cs ih =>
    have hc : digit? c = some (c.toNat - '0'.toNat) := by
      rw [digit?, if_pos (h c List.mem_cons_self)]
    rw [ofDecimalAfter?, hc, Option.bind_some, ih fun d hd => h d (List.mem_cons_of_mem c hd),
      Nat.ofDigitChars_cons]

/-- Only digits are read as a number. -/
theorem isDigit_of_ofDecimalAfter? {cs : List Char} {value n : Nat}
    (h : ofDecimalAfter? value cs = some n) : ∀ c ∈ cs, c.isDigit = true := by
  induction cs generalizing value with
  | nil => nofun
  | cons c cs ih =>
    rw [ofDecimalAfter?, Option.bind_eq_some_iff] at h
    obtain ⟨d, hd, hcs⟩ := h
    have hc : c.isDigit = true := by
      rw [digit?] at hd
      split at hd
      · assumption
      · cases hd
    exact List.forall_mem_cons.2 ⟨hc, ih hcs⟩

/-- A numeral is one or more digits, read in base ten. -/
theorem ofDecimal?_eq_some_iff {cs : List Char} {n : Nat} :
    ofDecimal? cs = some n ↔
      cs ≠ [] ∧ (∀ c ∈ cs, c.isDigit = true) ∧ Nat.ofDigitChars 10 cs 0 = n := by
  cases cs with
  | nil => exact ⟨nofun, fun h => absurd rfl h.1⟩
  | cons c cs =>
    have hread : ofDecimal? (c :: cs) = ofDecimalAfter? 0 (c :: cs) := rfl
    rw [hread]
    constructor
    · intro h
      have hdigits := isDigit_of_ofDecimalAfter? h
      rw [ofDecimalAfter?_of_isDigit hdigits, Option.some.injEq] at h
      exact ⟨List.cons_ne_nil c cs, hdigits, h⟩
    · rintro ⟨-, hdigits, rfl⟩
      exact ofDecimalAfter?_of_isDigit hdigits 0

/-- A written number reads as itself. -/
@[simp] theorem ofDecimal?_toString (n : Nat) : ofDecimal? (toString n).toList = some n := by
  have hdigits : ∀ c ∈ Nat.toDigits 10 n, c.isDigit = true := fun c hc =>
    Nat.isDigit_of_mem_toDigits (by decide) (by decide) hc
  rw [toList_toString]
  exact ofDecimal?_eq_some_iff.2
    ⟨Nat.toDigits_ne_nil, hdigits, Nat.ofDigitChars_ten_toDigits⟩

/-- Digits have no letter case. -/
theorem toUpper_of_isDigit {c : Char} (h : c.isDigit = true) : c.toUpper = c := by
  have hle : c.val.toNat ≤ 57 := by
    simp only [Char.isDigit, Bool.and_eq_true, decide_eq_true_eq] at h
    exact UInt32.le_iff_toNat_le.1 h.2
  have hnot : ¬ ('a'.val ≤ c.val ∧ c.val ≤ 'z'.val) := by
    rintro ⟨hge, -⟩
    have hge' : 97 ≤ c.val.toNat := UInt32.le_iff_toNat_le.1 hge
    omega
  exact dif_neg hnot

theorem capitals_of_isDigit {text : String} (h : ∀ c ∈ text.toList, c.isDigit = true) :
    capitals text = text := by
  have hmap : text.toList.map Char.toUpper = text.toList :=
    (List.map_congr_left fun c hc => toUpper_of_isDigit (h c hc)).trans (List.map_id _)
  rw [capitals, hmap, String.ofList_toList]

/-! ## Letter case -/

/-- A character is a small letter or is its own capital. -/
theorem toUpper_eq_or_eq_ofNat (c : Char) :
    c.toUpper = c ∨ ∃ i : Fin 26, c = Char.ofNat ('a'.toNat + i) := by
  by_cases h : 'a'.val ≤ c.val ∧ c.val ≤ 'z'.val
  · have hlow : 97 ≤ c.toNat := UInt32.le_iff_toNat_le.1 h.1
    have hhigh : c.toNat ≤ 122 := UInt32.le_iff_toNat_le.1 h.2
    refine .inr ⟨⟨c.toNat - 97, by omega⟩, ?_⟩
    have hsum : 'a'.toNat + (c.toNat - 97) = c.toNat := Nat.add_sub_cancel' hlow
    rw [hsum, Char.ofNat_toNat]
  · exact .inl (dif_neg h)

/-- A function that takes each small letter for its capital does not tell letter case. -/
theorem apply_toUpper {α : Type} {f : Char → α}
    (h : ∀ i : Fin 26, f (Char.ofNat ('a'.toNat + i)).toUpper = f (Char.ofNat ('a'.toNat + i)))
    (c : Char) : f c.toUpper = f c := by
  rcases toUpper_eq_or_eq_ofNat c with hc | ⟨i, rfl⟩
  · rw [hc]
  · exact h i

theorem digit?_toUpper (c : Char) : digit? c.toUpper = digit? c :=
  apply_toUpper (by decide) c

theorem HexDigit.ofChar?_toUpper (c : Char) : ofChar? c.toUpper = ofChar? c :=
  apply_toUpper (by decide) c

theorem ofDecimalAfter?_map_toUpper (value : Nat) (cs : List Char) :
    ofDecimalAfter? value (cs.map Char.toUpper) = ofDecimalAfter? value cs := by
  induction cs generalizing value with
  | nil => rfl
  | cons c cs ih => simp only [List.map_cons, ofDecimalAfter?, digit?_toUpper, ih]

/-- A numeral is read from its capitals. -/
theorem ofDecimal?_map_toUpper (cs : List Char) :
    ofDecimal? (cs.map Char.toUpper) = ofDecimal? cs := by
  cases cs with
  | nil => rfl
  | cons c cs => exact ofDecimalAfter?_map_toUpper 0 (c :: cs)

theorem ofDecimal?_capitals (text : String) :
    ofDecimal? (capitals text).toList = ofDecimal? text.toList := by
  rw [capitals, String.toList_ofList, ofDecimal?_map_toUpper]

end VoxelLogic.Text
