import VoxelLogic.Json.Array
import VoxelLogic.Proofs.Text.Lines
import VoxelLogic.Proofs.Text.Numeral
import Mathlib.Data.List.Basic

/-!
# Written numbers of a JSON text

A natural number of 64 bits that is written in decimal digits is read back from them, whatever
follows, unless that goes on with the number.

* `Yields`: a reader has read a value and left the rest (`yields_map`, `yields_after`).
* `next?_append`: blanks are passed over.
* `digitBytes`: the digits of a number (`encode_toString`), which stand for it
  (`digitsAfter_digitBytes`) and do not begin with a needless zero (`ne_zeroDigit_of_digitBytes`).
* `yields_readNatural`: reading the number.
-/

namespace VoxelLogic.Json

open Text

variable {ε α β : Type} {source : List UInt8}

/-- A reader has read a value and left the rest. -/
def Yields (result : Except ε (Reading α source)) (value : α) (rest : List UInt8) : Prop :=
  ∃ r, result = .ok r ∧ r.value = value ∧ r.rest = rest

/-- The value that is read can be changed afterwards. -/
theorem yields_map {result : Except ε (Reading α source)} {value : α} {rest : List UInt8}
    (h : Yields result value rest) (f : α → β) :
    Yields (result.map fun r => r.map f) (f value) rest := by
  obtain ⟨r, rfl, rfl, rfl⟩ := h
  exact ⟨r.map f, rfl, rfl, rfl⟩

/-- Reading goes on after another reading. -/
theorem yields_after (first : Reading α source) {result : Except ε (Reading β first.rest)}
    {value : β} {rest : List UInt8} (h : Yields result value rest) :
    Yields (result.map first.after) value rest := by
  obtain ⟨r, rfl, rfl, rfl⟩ := h
  exact ⟨first.after r, rfl, rfl, rfl⟩

/-- The next byte after blanks. -/
theorem next?_append {blanks : List UInt8} (hblanks : ∀ b ∈ blanks, isBlank b = true) {b : UInt8}
    (hb : isBlank b = false) (rest : List UInt8) :
    ∃ r, next? (blanks ++ b :: rest) = some r ∧ r.value = b ∧ r.rest = rest := by
  have hend : ∀ c ∈ (b :: rest).head?, isBlank c = false := by
    rintro c ⟨⟩
    exact hb
  have hdrop := dropWhile_run hblanks hend
  unfold next?
  split
  · next heq =>
    rw [hdrop] at heq
    cases heq
  · next c more heq =>
    rw [hdrop] at heq
    obtain ⟨rfl, rfl⟩ := List.cons.inj heq
    exact ⟨_, rfl, rfl, rfl⟩

/-- Only blanks have no next byte. -/
theorem next?_eq_none_iff {source : List UInt8} :
    next? source = none ↔ ∀ b ∈ source, isBlank b = true := by
  rw [← List.dropWhile_eq_nil_iff]
  unfold next?
  split
  · next heq => exact ⟨fun _ => heq, fun _ => rfl⟩
  · next b rest heq =>
    constructor
    · intro hsome
      cases hsome
    · intro hnil
      rw [hnil] at heq
      cases heq

/-! ## Digits -/

/-- The bytes of the decimal digits of a number. -/
def digitBytes (n : Nat) : List UInt8 := (Nat.toDigits 10 n).map fun c => UInt8.ofNat c.toNat

theorem range_of_isDigit {c : Char} (h : c.isDigit = true) : 48 ≤ c.toNat ∧ c.toNat ≤ 57 := by
  simp only [Char.isDigit, Bool.and_eq_true, decide_eq_true_eq, ge_iff_le,
    UInt32.le_iff_toNat_le] at h
  exact h

/-- A number is encoded digit by digit. -/
theorem encode_toString (n : Nat) : encode (toString n) = digitBytes n := by
  have hascii : ∀ c ∈ (toString n).toList, c.toNat < 128 := fun c hc => by
    have hrange := range_of_isDigit (isDigit_of_mem_toString hc)
    omega
  rw [encode_of_ascii hascii, toList_toString, digitBytes]

theorem toNat_ofNat_of_isDigit {c : Char} (h : c.isDigit = true) :
    (UInt8.ofNat c.toNat).toNat = c.toNat := by
  have hrange := range_of_isDigit h
  exact UInt8.toNat_ofNat_of_lt' (Nat.lt_of_le_of_lt hrange.2 (by decide))

theorem isDigit_of_mem_toDigits {n : Nat} {c : Char} (h : c ∈ Nat.toDigits 10 n) :
    c.isDigit = true :=
  Nat.isDigit_of_mem_toDigits (by decide) (by decide) h

theorem isDigit_of_mem_digitBytes {n : Nat} {b : UInt8} (h : b ∈ digitBytes n) :
    isDigit b = true := by
  obtain ⟨c, hc, rfl⟩ := List.mem_map.1 h
  have hdigit := isDigit_of_mem_toDigits hc
  obtain ⟨hlow, hhigh⟩ := range_of_isDigit hdigit
  simp only [isDigit, Bool.and_eq_true, decide_eq_true_eq, UInt8.le_iff_toNat_le,
    toNat_ofNat_of_isDigit hdigit]
  exact ⟨hlow, hhigh⟩

/-- A digit is not blank. -/
theorem isBlank_of_isDigit {b : UInt8} (h : isDigit b = true) : isBlank b = false := by
  cases hblank : isBlank b with
  | false => rfl
  | true =>
    simp only [isBlank, Bool.or_eq_true, beq_iff_eq] at hblank
    rcases hblank with ((rfl | rfl) | rfl) | rfl <;> exact absurd h (by decide)

theorem digitBytes_ne_nil (n : Nat) : digitBytes n ≠ [] := by
  rw [digitBytes, Ne, List.map_eq_nil_iff]
  exact Nat.toDigits_ne_nil

/-- The digits of a number stand for it. -/
theorem digitsAfter_digitBytes (n : Nat) : digitsAfter 0 (digitBytes n) = n := by
  have hdigits : ∀ (cs : List Char) (m : Nat), (∀ c ∈ cs, c.isDigit = true) →
      digitsAfter m (cs.map fun c => UInt8.ofNat c.toNat) = Nat.ofDigitChars 10 cs m := by
    intro cs
    induction cs with
    | nil => exact fun _ _ => rfl
    | cons c cs ih =>
      intro m hcs
      have hvalue : digitValue (UInt8.ofNat c.toNat) = c.toNat - '0'.toNat := by
        rw [digitValue, toNat_ofNat_of_isDigit (hcs c List.mem_cons_self)]
        rfl
      rw [Nat.ofDigitChars_cons, ← ih _ fun d hd => hcs d (List.mem_cons_of_mem c hd), ← hvalue]
      rfl
  rw [digitBytes, hdigits _ _ fun c hc => isDigit_of_mem_toDigits hc,
    Nat.ofDigitChars_ten_toDigits]

/-- A number other than zero does not begin with a zero. -/
theorem head?_toDigits_ne {n : Nat} (h : 0 < n) : (Nat.toDigits 10 n).head? ≠ some '0' := by
  induction n using Nat.strongRecOn with
  | ind n ih =>
    rcases Nat.lt_or_ge n 10 with hlt | hge
    · have hsmall : ∀ m < 10, 0 < m → m.digitChar ≠ '0' := by decide
      rw [Nat.toDigits_of_lt_base hlt, List.head?_cons]
      exact fun heq => hsmall n hlt h (Option.some.inj heq)
    · rw [Nat.toDigits_of_base_le (by decide) hge,
        List.head?_append_of_ne_nil _ Nat.toDigits_ne_nil]
      exact ih (n / 10) (by omega) (by omega)

/-- More than one digit does not begin with a zero. -/
theorem ne_zeroDigit_of_digitBytes {n : Nat} {d e : UInt8} {ds : List UInt8}
    (h : digitBytes n = d :: e :: ds) : d ≠ zeroDigit := by
  rintro rfl
  obtain ⟨c, cs, hcs, hc, hrest⟩ := List.map_eq_cons_iff.1 h
  rcases Nat.eq_zero_or_pos n with rfl | hpos
  · rw [Nat.toDigits_zero] at hcs
    obtain ⟨-, rfl⟩ := List.cons.inj hcs
    cases hrest
  · refine head?_toDigits_ne hpos ?_
    have hdigit : c.isDigit = true := isDigit_of_mem_toDigits (hcs ▸ List.mem_cons_self)
    have hval := congrArg UInt8.toNat hc
    rw [toNat_ofNat_of_isDigit hdigit] at hval
    have hzero : c = '0' := Char.toNat_inj.1 hval
    rw [hcs, List.head?_cons, hzero]

/-! ## Form -/

/-- What can follow a number: no digit, no fraction and no exponent. -/
def EndsNumber (rest : List UInt8) : Prop :=
  ∀ b ∈ rest.head?, isDigit b = false ∧ b ≠ point ∧ b ≠ 0x65 ∧ b ≠ 0x45

variable {rest : List UInt8}

theorem yields_readDigits (atEnd : Fault) {d : UInt8} {ds : List UInt8}
    (hdigits : ∀ b ∈ d :: ds, isDigit b = true)
    (hrest : ∀ b ∈ rest.head?, isDigit b = false) :
    Yields (readDigits atEnd (d :: ds ++ rest)) (d :: ds) rest := by
  have htake := takeWhile_run hdigits hrest
  have hdrop := dropWhile_run hdigits hrest
  unfold readDigits
  split
  · next heq =>
    rw [htake] at heq
    cases heq
  · next e es heq =>
    rw [htake] at heq
    obtain ⟨rfl, rfl⟩ := List.cons.inj heq
    exact ⟨_, rfl, rfl, hdrop⟩

theorem readFraction_none (atEnd : Fault) (hrest : EndsNumber rest) :
    readFraction atEnd rest = .ok ⟨none, rest, length_le_self rest⟩ := by
  cases rest with
  | nil => rfl
  | cons b rest => rw [readFraction, if_neg (hrest b rfl).2.1]

theorem readExponent_none (atEnd : Fault) (hrest : EndsNumber rest) :
    readExponent atEnd rest = .ok ⟨none, rest, length_le_self rest⟩ := by
  cases rest with
  | nil => rfl
  | cons b rest =>
    have hletter : ¬ (b = 0x65 ∨ b = 0x45) := not_or.2 (hrest b rfl).2.2
    rw [readExponent, if_neg hletter]

/-- Digits before a fraction are read unless they begin with a needless zero. -/
theorem yields_readWhole (atEnd : Fault) {digits : List UInt8}
    (h : Yields (readDigits atEnd source) digits rest)
    (hzero : ∀ d e ds, digits = d :: e :: ds → d ≠ zeroDigit) :
    Yields (readWhole atEnd source) digits rest := by
  obtain ⟨r, hr, rfl, rfl⟩ := h
  refine ⟨r, ?_, rfl, rfl⟩
  rw [readWhole, hr]
  simp only
  split
  · next d e ds heq => rw [if_neg (hzero d e ds heq)]
  · rfl

theorem yields_readUnsigned (atEnd : Fault) {digits : List UInt8}
    (h : Yields (readWhole atEnd source) digits rest) (hrest : EndsNumber rest) :
    Yields (readUnsigned atEnd false source) ⟨false, digits, none, none⟩ rest := by
  obtain ⟨whole, hwhole, rfl, rfl⟩ := h
  unfold Yields
  simp only [readUnsigned, hwhole, readFraction_none atEnd hrest, readExponent_none atEnd hrest]
  exact ⟨_, rfl, rfl, rfl⟩

/-- The digits of a number are a number without fraction and exponent. -/
theorem yields_readNumeral (atEnd : Fault) (n : Nat) (hrest : EndsNumber rest) :
    Yields (readNumeral atEnd (digitBytes n ++ rest)) ⟨false, digitBytes n, none, none⟩ rest := by
  have hdigits : ∀ b ∈ digitBytes n, isDigit b = true := fun _ hb => isDigit_of_mem_digitBytes hb
  have hzero : ∀ d e ds, digitBytes n = d :: e :: ds → d ≠ zeroDigit :=
    fun _ _ _ h => ne_zeroDigit_of_digitBytes h
  cases hbytes : digitBytes n with
  | nil => exact absurd hbytes (digitBytes_ne_nil n)
  | cons d ds =>
    rw [hbytes] at hdigits hzero
    have hminus : d ≠ minus := by
      rintro rfl
      exact absurd (hdigits minus List.mem_cons_self) (by decide)
    have hrun := yields_readDigits atEnd hdigits fun b hb => (hrest b hb).1
    have hunsigned := yields_readUnsigned atEnd (yields_readWhole atEnd hrun hzero) hrest
    rw [List.cons_append, readNumeral, if_neg hminus]
    exact hunsigned

/-! ## Value -/

theorem le_digitsAfter (ds : List UInt8) (m : Nat) : m ≤ digitsAfter m ds := by
  induction ds generalizing m with
  | nil => exact Nat.le_refl m
  | cons d ds ih => exact Nat.le_trans (by omega) (ih (10 * m + digitValue d))

/-- Digits of a number that fits 64 bits are all absorbed. -/
theorem absorb_of_lt {ds : List UInt8} {m : Nat} (h : digitsAfter m ds < UInt64.size) :
    absorb m ds = (digitsAfter m ds, []) := by
  induction ds generalizing m with
  | nil => rfl
  | cons d ds ih =>
    have hfirst : 10 * m + digitValue d < UInt64.size :=
      Nat.lt_of_le_of_lt (le_digitsAfter ds _) h
    rw [absorb, if_pos hfirst]
    exact ih h

/-- Rounding to 53 bits at most doubles a number. -/
theorem round53_le (n : Nat) : round53 n ≤ 2 * n := by
  unfold round53
  split
  · omega
  · next hge =>
    have hpos : n ≠ 0 := by
      rintro rfl
      exact hge (by decide)
    have hunit : 1 <<< (Nat.log2 n - 52) ≤ n := by
      rw [Nat.one_shiftLeft]
      exact Nat.le_trans (Nat.pow_le_pow_right (by decide) (Nat.sub_le _ _)) (Nat.log2_self_le hpos)
    have hquotient : n / (1 <<< (Nat.log2 n - 52)) * (1 <<< (Nat.log2 n - 52)) ≤ n :=
      Nat.div_mul_le_self n _
    simp only
    split
    · rw [Nat.add_mul, Nat.one_mul]
      omega
    · omega

variable {n : Nat}

theorem absorb_digitBytes (h : n < UInt64.size) : absorb 0 (digitBytes n) = (n, []) := by
  rw [absorb_of_lt (by rwa [digitsAfter_digitBytes]), digitsAfter_digitBytes]

theorem natural?_digitBytes (h : n < UInt64.size) :
    (⟨false, digitBytes n, none, none⟩ : Numeral).natural? = some n := by
  simp only [Numeral.natural?, absorb_digitBytes h, and_self, if_true]

/-- A natural number of 64 bits is not too large. -/
theorem isFinite_digitBytes (h : n < UInt64.size) :
    (⟨false, digitBytes n, none, none⟩ : Numeral).isFinite = true := by
  have hsignificand : (⟨false, digitBytes n, none, none⟩ : Numeral).significand = n := by
    simp [Numeral.significand, Numeral.fractionDigits, absorb_digitBytes h, absorb]
  have hscale : (⟨false, digitBytes n, none, none⟩ : Numeral).scale = 0 := by
    simp [Numeral.scale, Numeral.writtenExponent, Numeral.fractionDigits, absorb_digitBytes h,
      absorb]
  have hproduct : round53 n * round53 (Nat.pow 10 (0 : Int).toNat) < 2 * UInt64.size * 2 := by
    have hone : round53 (Nat.pow 10 (0 : Int).toNat) ≤ 2 := round53_le 1
    exact Nat.lt_of_le_of_lt (Nat.mul_le_mul (round53_le n) hone) (by omega)
  rw [Numeral.isFinite, hsignificand, hscale]
  refine Bool.or_eq_true_iff.2 (Or.inr (Bool.and_eq_true_iff.2 ⟨by decide, ?_⟩))
  refine decide_eq_true (Nat.lt_of_lt_of_le hproduct ?_)
  decide +kernel

theorem yields_readNumber {numeral : Numeral}
    (h : Yields (readNumeral .truncated source) numeral rest) (hfinite : numeral.isFinite = true) :
    Yields (readNumber source) numeral rest := by
  obtain ⟨r, hr, rfl, rfl⟩ := h
  refine ⟨r, ?_, rfl, rfl⟩
  rw [readNumber, hr]
  simp only [hfinite, if_true]

theorem yields_readNatural_of_next? {b : Reading UInt8 source} (hb : next? source = some b)
    (hdigit : isDigit b.value = true) {numeral : Numeral}
    (h : Yields (readNumber (b.value :: b.rest)) numeral rest)
    (hnatural : numeral.natural? = some n) {largest : Nat} (hn : n ≤ largest) :
    Yields (readNatural largest source) n rest := by
  obtain ⟨r, hr, rfl, rfl⟩ := h
  unfold Yields
  simp only [readNatural, hb, hdigit, or_true, if_true, hr, hnatural, if_pos hn]
  exact ⟨_, rfl, rfl, rfl⟩

/-- **Written numbers.**  A natural number that is at most `largest` is read back from its digits,
behind any blanks. -/
theorem yields_readNatural {largest : Nat} (hlargest : largest < UInt64.size) (hn : n ≤ largest)
    {blanks : List UInt8} (hblanks : ∀ b ∈ blanks, isBlank b = true) (hrest : EndsNumber rest) :
    Yields (readNatural largest (blanks ++ (digitBytes n ++ rest))) n rest := by
  have hsmall : n < UInt64.size := Nat.lt_of_le_of_lt hn hlargest
  have hnumber := yields_readNumber (yields_readNumeral .truncated n hrest)
    (isFinite_digitBytes hsmall)
  have hnatural := natural?_digitBytes hsmall
  cases hbytes : digitBytes n with
  | nil => exact absurd hbytes (digitBytes_ne_nil n)
  | cons d ds =>
    have hdigit : isDigit d = true := isDigit_of_mem_digitBytes (hbytes ▸ List.mem_cons_self)
    obtain ⟨b, hb, hvalue, hleft⟩ :=
      next?_append hblanks (isBlank_of_isDigit hdigit) (ds ++ rest)
    have hsource : b.value :: b.rest = d :: (ds ++ rest) := by rw [hvalue, hleft]
    rw [hbytes, List.cons_append, ← hsource] at hnumber
    rw [hbytes] at hnatural
    rw [List.cons_append]
    have hdigit' : isDigit b.value = true := by rw [hvalue, hdigit]
    exact yields_readNatural_of_next? hb hdigit' hnumber hnatural hn

end VoxelLogic.Json
