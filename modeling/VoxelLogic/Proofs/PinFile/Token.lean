import VoxelLogic.PinFile.Token
import VoxelLogic.Proofs.Text.Lines
import Mathlib.Data.List.DropRight

/-!
# Written tokens

The tokens of a written line are known from how it was written.  `Spells` says how tokens may be
written: blanks may stand anywhere, a mark is one character, and what follows a word must not go on
with it.

* `scan_of_isBlank`, `scan_of_ofMark?`, `scan_run`: what a blank, a mark or a word at the beginning
  of a text is scanned into.
* `scan_of_spells`: a text is scanned into the tokens it spells.
* `Spells.append`: texts can be written one after the other unless two words meet.
* `scan_rdropWhile`: blanks at the end of a line are scanned into nothing.
-/

namespace VoxelLogic.PinFile

namespace Token

/-- A text that does not go on with a word before it. -/
def IsApart (text : List Char) : Prop := ∀ c ∈ text.head?, isWordCharacter c = false

theorem isApart_nil : IsApart [] := fun _ h => nomatch h

theorem isApart_cons {c : Char} (h : isWordCharacter c = false) (text : List Char) :
    IsApart (c :: text) := by
  rintro d ⟨⟩
  exact h

theorem IsApart.append {s t : List Char} (hs : IsApart s) (ht : IsApart t) : IsApart (s ++ t) := by
  cases s with
  | nil => exact ht
  | cons c s => exact isApart_cons (hs c rfl) _

/-- A text that can be read as a word. -/
def IsWord (text : List Char) : Prop := text ≠ [] ∧ ∀ c ∈ text, isWordCharacter c = true

instance (text : List Char) : Decidable (IsWord text) :=
  decidable_of_iff (text ≠ [] ∧ text.all isWordCharacter = true) (by rw [List.all_eq_true, IsWord])

/-- How tokens are written. -/
inductive Spells : List Char → List Token → Prop where
  | nil : Spells [] []
  | blank {text : List Char} {tokens : List Token} :
    Spells text tokens → Spells (' ' :: text) tokens
  | mark {c : Char} {mark : Token} {text : List Char} {tokens : List Token} :
    ofMark? c = some mark → Spells text tokens → Spells (c :: text) (mark :: tokens)
  | word {run text : List Char} {tokens : List Token} :
    IsWord run → IsApart text → Spells text tokens →
      Spells (run ++ text) (.word (String.ofList run) :: tokens)

/-! ## Characters -/

/-- A mark is one of four characters. -/
theorem mem_of_ofMark? {c : Char} {mark : Token} (h : ofMark? c = some mark) :
    c ∈ ['(', ')', ',', '='] := by
  unfold ofMark? at h
  split at h
  · next hc => simp [hc]
  · split at h
    · next hc => simp [hc]
    · split at h
      · next hc => simp [hc]
      · split at h
        · next hc => simp [hc]
        · cases h

theorem isBlank_of_ofMark? {c : Char} {mark : Token} (h : ofMark? c = some mark) :
    Text.isBlank c = false := by
  have hall : (['(', ')', ',', '='].all fun d => !Text.isBlank d) = true := by decide
  simpa using List.all_eq_true.1 hall c (mem_of_ofMark? h)

/-- A character of a word is an ASCII character of the ranges of letters and digits, or the
underscore. -/
theorem mem_range_of_isWordCharacter {c : Char} (h : isWordCharacter c = true) :
    0x30 ≤ c.toNat ∧ c.toNat ≤ 0x7A := by
  have hupper : c.isUpper = decide (c.val ≥ 'A'.val ∧ c.val ≤ 'Z'.val) := rfl
  have hlower : c.isLower = (decide (c.val ≥ 'a'.val) && decide (c.val ≤ 'z'.val)) := rfl
  have hdigit : c.isDigit = (decide (c.val ≥ '0'.val) && decide (c.val ≤ '9'.val)) := rfl
  have hword : isWordCharacter c = (((c.isUpper || c.isLower) || c.isDigit) || c == '_') := rfl
  simp only [hword, hupper, hlower, hdigit, Bool.or_eq_true, Bool.and_eq_true, decide_eq_true_eq,
    beq_iff_eq, ge_iff_le, UInt32.le_iff_toNat_le] at h
  rcases h with ((⟨hlow, hhigh⟩ | ⟨hlow, hhigh⟩) | ⟨hlow, hhigh⟩) | rfl
  · exact ⟨Nat.le_trans (by decide) hlow, Nat.le_trans hhigh (by decide)⟩
  · exact ⟨Nat.le_trans (by decide) hlow, Nat.le_trans hhigh (by decide)⟩
  · exact ⟨Nat.le_trans (by decide) hlow, Nat.le_trans hhigh (by decide)⟩
  · decide

theorem isBlank_of_isWordCharacter {c : Char} (h : isWordCharacter c = true) :
    Text.isBlank c = false := by
  obtain ⟨hlow, hhigh⟩ := mem_range_of_isWordCharacter h
  have hall : ∀ range ∈ Text.blankRanges, range.2 < 0x30 ∨ 0x7A < range.1 := by decide
  rw [Text.isBlank, List.any_eq_false]
  intro range hrange
  have hrange' := hall range hrange
  simp only [Bool.and_eq_true, decide_eq_true_eq]
  omega

theorem isWordCharacter_of_ofMark? {c : Char} {mark : Token} (h : ofMark? c = some mark) :
    isWordCharacter c = false := by
  have hall : (['(', ')', ',', '='].all fun d => !isWordCharacter d) = true := by decide
  simpa using List.all_eq_true.1 hall c (mem_of_ofMark? h)

theorem ofMark?_of_isWordCharacter {c : Char} (h : isWordCharacter c = true) :
    ofMark? c = none := by
  rw [Option.eq_none_iff_forall_ne_some]
  intro mark hmark
  rw [isWordCharacter_of_ofMark? hmark] at h
  cases h

/-- A blank does not go on with a word. -/
theorem isWordCharacter_of_isBlank {c : Char} (h : Text.isBlank c = true) :
    isWordCharacter c = false := by
  rw [Bool.eq_false_iff]
  intro hword
  rw [isBlank_of_isWordCharacter hword] at h
  cases h

/-! ## Scanning -/

theorem scan_of_isBlank {c : Char} (h : Text.isBlank c = true) (cs : List Char) :
    scan (c :: cs) = scan cs := by
  rw [scan, if_pos h]

theorem scan_of_ofMark? {c : Char} {mark : Token} (h : ofMark? c = some mark) (cs : List Char) :
    scan (c :: cs) = (scan cs).map (mark :: ·) := by
  rw [scan, if_neg (by simp [isBlank_of_ofMark? h]), h]

theorem scan_of_isWordCharacter {c : Char} (h : isWordCharacter c = true) (cs : List Char) :
    scan (c :: cs) = (scan (cs.dropWhile isWordCharacter)).map
      (word (String.ofList (c :: cs.takeWhile isWordCharacter)) :: ·) := by
  rw [scan, if_neg (by simp [isBlank_of_isWordCharacter h]), ofMark?_of_isWordCharacter h]
  exact if_pos h

/-- A word is scanned whole if what follows does not go on with it. -/
theorem scan_run {run text : List Char} (hrun : IsWord run) (hapart : IsApart text) :
    scan (run ++ text) = (scan text).map (word (String.ofList run) :: ·) := by
  obtain ⟨hne, hword⟩ := hrun
  cases run with
  | nil => exact absurd rfl hne
  | cons c cs =>
    have hcs : ∀ d ∈ cs, isWordCharacter d = true := fun d hd =>
      hword d (List.mem_cons_of_mem c hd)
    rw [List.cons_append, scan_of_isWordCharacter (hword c List.mem_cons_self),
      Text.takeWhile_run hcs hapart, Text.dropWhile_run hcs hapart]

/-- A text is scanned into the tokens it spells. -/
theorem scan_of_spells {text : List Char} {tokens : List Token} (h : Spells text tokens) :
    scan text = .ok tokens := by
  induction h with
  | nil => exact scan_nil
  | blank _ ih => rw [scan_of_isBlank (by decide), ih]
  | mark hmark _ ih =>
    rw [scan_of_ofMark? hmark, ih]
    rfl
  | word hrun hapart _ ih =>
    rw [scan_run hrun hapart, ih]
    rfl

/-- Texts are written one after the other. -/
theorem Spells.append {s t : List Char} {ks ls : List Token} (hs : Spells s ks)
    (hapart : IsApart t) (ht : Spells t ls) : Spells (s ++ t) (ks ++ ls) := by
  induction hs with
  | nil => exact ht
  | blank _ ih => exact .blank ih
  | mark hmark _ ih => exact .mark hmark ih
  | word hrun happart' _ ih =>
    rw [List.append_assoc, List.cons_append]
    exact .word hrun (happart'.append hapart) ih

theorem Spells.ofWord {run : List Char} (h : IsWord run) :
    Spells run [.word (String.ofList run)] := by
  have hword := Spells.word h isApart_nil .nil
  rwa [List.append_nil] at hword

/-! ## Blanks at the end -/

/-- A blank at the end of a line belongs to no token. -/
theorem scan_concat {c : Char} (h : Text.isBlank c = true) (line : List Char) :
    scan (line ++ [c]) = scan line := by
  have hword := isWordCharacter_of_isBlank h
  induction line using scan.induct with
  | case1 => rw [List.nil_append, scan_of_isBlank h]
  | case2 d cs hblank ih =>
    rw [List.cons_append, scan_of_isBlank hblank, ih, scan_of_isBlank hblank]
  | case3 d cs hblank mark hmark ih =>
    rw [List.cons_append, scan_of_ofMark? hmark, ih, scan_of_ofMark? hmark]
  | case4 d cs hblank hmark hd ih =>
    -- the word ends before the blank, so the blank is left with what follows the word
    have hrest : (cs ++ [c]).dropWhile isWordCharacter = cs.dropWhile isWordCharacter ++ [c] := by
      rw [List.dropWhile_append]
      split
      · next hempty => simp [List.isEmpty_iff.1 hempty, hword]
      · rfl
    have hrun : (cs ++ [c]).takeWhile isWordCharacter = cs.takeWhile isWordCharacter := by
      rw [List.takeWhile_append]
      split
      · next hlength =>
        rw [(List.takeWhile_prefix isWordCharacter).eq_of_length hlength]
        simp [hword]
      · rfl
    rw [List.cons_append, scan_of_isWordCharacter hd, hrest, hrun, ih, scan_of_isWordCharacter hd]
  | case5 d cs hblank hmark hd =>
    rw [List.cons_append, scan, if_neg hblank, hmark, scan, if_neg hblank, hmark]
    simp only [if_neg hd]

/-- Blanks at the end of a line belong to no token. -/
theorem scan_rdropWhile (line : List Char) : scan (line.rdropWhile Text.isBlank) = scan line := by
  induction line using List.reverseRecOn with
  | nil => rw [List.rdropWhile_nil]
  | append_singleton line c ih =>
    by_cases hc : Text.isBlank c = true
    · rw [List.rdropWhile_concat_pos _ _ _ hc, ih, scan_concat hc]
    · rw [List.rdropWhile_concat_neg _ _ _ hc]

end Token

end VoxelLogic.PinFile
