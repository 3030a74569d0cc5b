import VoxelLogic.Proofs.PinFile.Refusal
import Mathlib.Data.List.Chain

/-!
# Scanned lines

A line is scanned if each of its characters is blank or may be part of a token, and otherwise its
first other character is reported.  Scanning takes nothing from a line but its blanks.  What it
finds can be told without it: the tokens stand on the line one after the other with blanks between
them, and where two words follow one another there is a blank between them.

* `IsAllowed`, `isForeign_eq_false_iff`: the characters that may stand on a line.
* `Spacing`: tokens and the blanks around them.
* `scan_text`, `exists_spacing`: a spacing is scanned into its tokens, and every line that is
  scanned is the text of a spacing.
* `Spacing.filter_text`: a spacing without its blanks.
* `scan_exact`: when a line is scanned and into what.
-/

namespace VoxelLogic.PinFile.Token

open Text

/-! ## Characters -/

/-- The characters that may stand on a line: blanks, the four marks, and ASCII letters, ASCII digits
and the underscore. -/
def IsAllowed (c : Char) : Prop :=
  isBlank c = true ∨ c ∈ ['(', ')', ',', '='] ∨ c.isAlphanum = true ∨ c = '_'

instance (c : Char) : Decidable (IsAllowed c) := inferInstanceAs (Decidable (_ ∨ _))

theorem ofMark?_eq_none_iff {c : Char} : ofMark? c = none ↔ c ∉ ['(', ')', ',', '='] := by
  constructor
  · intro h hmem
    have hall : (['(', ')', ',', '='].all fun d => (ofMark? d).isSome) = true := by decide
    have hsome := List.all_eq_true.1 hall c hmem
    rw [h] at hsome
    cases hsome
  · intro h
    rw [Option.eq_none_iff_forall_ne_some]
    exact fun mark hmark => h (mem_of_ofMark? hmark)

theorem isForeign_eq_false_iff {c : Char} : isForeign c = false ↔ IsAllowed c := by
  have hmark : (ofMark? c).isNone = true ↔ c ∉ ['(', ')', ',', '='] := by
    rw [Option.isNone_iff_eq_none, ofMark?_eq_none_iff]
  have hword : isWordCharacter c = true ↔ c.isAlphanum = true ∨ c = '_' := by
    rw [isWordCharacter, Bool.or_eq_true, beq_iff_eq]
  rw [← Bool.not_eq_true, isForeign, Bool.and_eq_true, Bool.and_eq_true, hmark, Bool.not_eq_true',
    Bool.not_eq_true', ← Bool.not_eq_true, ← Bool.not_eq_true (isWordCharacter c), hword, IsAllowed]
  tauto

/-! ## Spacings -/

/-- Whether a token is a word. -/
def isWord : Token → Bool
  | word _ => true
  | _ => false

@[simp] theorem text_word (run : String) : (word run).text = run := rfl

/-- The token of a mark is no word, and its text is the mark. -/
theorem isWord_and_text_of_ofMark? {c : Char} {mark : Token} (h : ofMark? c = some mark) :
    mark.isWord = false ∧ mark.text.toList = [c] := by
  have hmem := mem_of_ofMark? h
  simp only [List.mem_cons, List.not_mem_nil, or_false] at hmem
  rcases hmem with rfl | rfl | rfl | rfl <;> cases h <;> decide

/-- A token that is no word is one character. -/
theorem exists_ofMark?_of_isWord {token : Token} (h : token.isWord = false) :
    ∃ c, ofMark? c = some token ∧ token.text.toList = [c] := by
  cases token with
  | leftParen => exact ⟨'(', by decide, by decide⟩
  | rightParen => exact ⟨')', by decide, by decide⟩
  | comma => exact ⟨',', by decide, by decide⟩
  | equals => exact ⟨'=', by decide, by decide⟩
  | word text => cases h

/-- Tokens as they stand on a line: the blanks before the first of them, and each of them with the
blanks behind it.  Two words do not touch. -/
structure Spacing where
  before : List Char
  spaced : List (Token × List Char)
  isBlank_before : ∀ c ∈ before, isBlank c = true
  isBlank_behind : ∀ x ∈ spaced, ∀ c ∈ x.2, isBlank c = true
  isWord_text : ∀ x ∈ spaced, x.1.isWord = true → IsWord x.1.text.toList
  apart : spaced.IsChain fun x y => x.1.isWord = true → y.1.isWord = true → x.2 ≠ []

/-- The text of tokens and of the blanks behind them. -/
def spacedText (spaced : List (Token × List Char)) : List Char :=
  spaced.flatMap fun (token, gap) => token.text.toList ++ gap

theorem spacedText_cons (token : Token) (gap : List Char) (spaced : List (Token × List Char)) :
    spacedText ((token, gap) :: spaced) = token.text.toList ++ (gap ++ spacedText spaced) := by
  rw [spacedText, List.flatMap_cons, List.append_assoc]
  rfl

namespace Spacing

/-- The characters of a spacing. -/
def text (s : Spacing) : List Char := s.before ++ spacedText s.spaced

/-- The tokens of a spacing. -/
def tokens (s : Spacing) : List Token := s.spaced.map Prod.fst

/-- The spacing without tokens and blanks. -/
def empty : Spacing where
  before := []
  spaced := []
  isBlank_before := List.forall_mem_nil _
  isBlank_behind := List.forall_mem_nil _
  isWord_text := List.forall_mem_nil _
  apart := .nil

/-- A blank is put before a spacing. -/
def indent (s : Spacing) (c : Char) (h : isBlank c = true) : Spacing where
  before := c :: s.before
  spaced := s.spaced
  isBlank_before := List.forall_mem_cons.2 ⟨h, s.isBlank_before⟩
  isBlank_behind := s.isBlank_behind
  isWord_text := s.isWord_text
  apart := s.apart

/-- A token is put before a spacing. -/
def push (s : Spacing) (token : Token) (hword : token.isWord = true → IsWord token.text.toList)
    (hapart : token.isWord = true → ∀ y ∈ s.spaced.head?, y.1.isWord = true → s.before ≠ []) :
    Spacing where
  before := []
  spaced := (token, s.before) :: s.spaced
  isBlank_before := List.forall_mem_nil _
  isBlank_behind := List.forall_mem_cons.2 ⟨s.isBlank_before, s.isBlank_behind⟩
  isWord_text := List.forall_mem_cons.2 ⟨hword, s.isWord_text⟩
  apart := List.isChain_cons.2 ⟨fun y hy htoken => hapart htoken y hy, s.apart⟩

@[simp] theorem text_push (s : Spacing) (token : Token) (hword hapart) :
    (s.push token hword hapart).text = token.text.toList ++ s.text :=
  spacedText_cons token s.before s.spaced

end Spacing

/-! ## A spacing is scanned into its tokens -/

theorem scan_blanks {gap : List Char} (h : ∀ c ∈ gap, isBlank c = true) (text : List Char) :
    scan (gap ++ text) = scan text := by
  induction gap with
  | nil => rfl
  | cons c gap ih =>
    rw [List.forall_mem_cons] at h
    rw [List.cons_append, scan_of_isBlank h.1, ih h.2]

/-- What stands behind a word does not go on with it. -/
theorem isApart_gap {gap : List Char} {spaced : List (Token × List Char)}
    (hgap : ∀ c ∈ gap, isBlank c = true)
    (hapart : ∀ y ∈ spaced.head?, y.1.isWord = true → gap ≠ []) :
    IsApart (gap ++ spacedText spaced) := by
  cases gap with
  | cons c gap => exact isApart_cons (isWordCharacter_of_isBlank (hgap c List.mem_cons_self)) _
  | nil =>
    cases spaced with
    | nil => exact isApart_nil
    | cons y spaced =>
      -- without a blank only a mark can follow
      have hy : y.1.isWord = false := by
        by_contra hword
        exact hapart y rfl (by simpa using hword) rfl
      obtain ⟨c, hmark, htext⟩ := exists_ofMark?_of_isWord hy
      rw [List.nil_append, spacedText_cons, htext]
      exact isApart_cons (isWordCharacter_of_ofMark? hmark) _

theorem scan_spacedText {spaced : List (Token × List Char)}
    (hblank : ∀ x ∈ spaced, ∀ c ∈ x.2, isBlank c = true)
    (hword : ∀ x ∈ spaced, x.1.isWord = true → IsWord x.1.text.toList)
    (hapart : spaced.IsChain fun x y => x.1.isWord = true → y.1.isWord = true → x.2 ≠ []) :
    scan (spacedText spaced) = .ok (spaced.map Prod.fst) := by
  induction spaced with
  | nil => exact scan_nil
  | cons x spaced ih =>
    obtain ⟨token, gap⟩ := x
    rw [List.forall_mem_cons] at hblank hword
    rw [List.isChain_cons] at hapart
    have hrest : scan (gap ++ spacedText spaced) = .ok (spaced.map Prod.fst) := by
      rw [scan_blanks hblank.1, ih hblank.2 hword.2 hapart.2]
    rw [spacedText_cons]
    cases htoken : token.isWord with
    | false =>
      obtain ⟨c, hmark, htext⟩ := exists_ofMark?_of_isWord htoken
      rw [htext, List.singleton_append, scan_of_ofMark? hmark, hrest]
      rfl
    | true =>
      have hbehind := isApart_gap hblank.1 fun y hy => hapart.1 y hy htoken
      rw [scan_run (hword.1 htoken) hbehind, hrest]
      cases token with
      | word run =>
        rw [text_word, String.ofList_toList]
        rfl
      | _ => cases htoken

/-- A spacing is scanned into its tokens. -/
theorem scan_text (s : Spacing) : scan s.text = .ok s.tokens := by
  rw [Spacing.text, scan_blanks s.isBlank_before]
  exact scan_spacedText s.isBlank_behind s.isWord_text s.apart

/-! ## Every line that is scanned is the text of a spacing -/

theorem isApart_dropWhile (cs : List Char) : IsApart (cs.dropWhile isWordCharacter) := by
  cases hdrop : cs.dropWhile isWordCharacter with
  | nil => exact isApart_nil
  | cons c rest =>
    have hhead := List.head_dropWhile_not isWordCharacter (l := cs) (by simp [hdrop])
    exact isApart_cons (by simpa [hdrop] using hhead) rest

/-- A word that does not go on with the one before it has a blank before it. -/
theorem ne_nil_of_isApart {gap : List Char} {spaced : List (Token × List Char)}
    (hword : ∀ x ∈ spaced, x.1.isWord = true → IsWord x.1.text.toList)
    (h : IsApart (gap ++ spacedText spaced)) :
    ∀ y ∈ spaced.head?, y.1.isWord = true → gap ≠ [] := by
  rintro ⟨token, behind⟩ hy hyword rfl
  have hmem : (token, behind) ∈ spaced := List.mem_of_mem_head? hy
  obtain ⟨hne, hall⟩ := hword _ hmem hyword
  obtain ⟨rest, rfl⟩ : ∃ rest, spaced = (token, behind) :: rest := List.head?_eq_some_iff.1 hy
  obtain ⟨c, cs, hcs⟩ := List.exists_cons_of_ne_nil hne
  rw [List.nil_append, spacedText_cons] at h
  simp only at hcs hall
  rw [hcs] at h hall
  have hc := hall c List.mem_cons_self
  rw [h c rfl] at hc
  cases hc

/-- Every line that is scanned is the text of a spacing of its tokens. -/
theorem exists_spacing {line : List Char} {tokens : List Token} (h : scan line = .ok tokens) :
    ∃ s : Spacing, s.text = line ∧ s.tokens = tokens := by
  induction line using scan.induct generalizing tokens with
  | case1 =>
    rw [scan_nil] at h
    cases h
    exact ⟨.empty, rfl, rfl⟩
  | case2 c cs hblank ih =>
    rw [scan_of_isBlank hblank] at h
    obtain ⟨s, rfl, rfl⟩ := ih h
    exact ⟨s.indent c hblank, rfl, rfl⟩
  | case3 c cs hblank mark hmark ih =>
    rw [scan_of_ofMark? hmark] at h
    obtain ⟨rest, hrest, rfl⟩ := map_eq_ok_iff.1 h
    obtain ⟨s, rfl, rfl⟩ := ih hrest
    obtain ⟨hword, htext⟩ := isWord_and_text_of_ofMark? hmark
    have hnot : ¬ mark.isWord = true := by simp [hword]
    refine ⟨s.push mark (absurd · hnot) (absurd · hnot), ?_, rfl⟩
    rw [Spacing.text_push, htext, List.singleton_append]
  | case4 c cs hblank hmark hc ih =>
    rw [scan_of_isWordCharacter hc] at h
    obtain ⟨rest, hrest, rfl⟩ := map_eq_ok_iff.1 h
    obtain ⟨s, htext, rfl⟩ := ih hrest
    have hrun : IsWord (word (String.ofList (c :: cs.takeWhile isWordCharacter))).text.toList := by
      rw [text_word, String.toList_ofList]
      exact ⟨List.cons_ne_nil _ _, List.forall_mem_cons.2 ⟨hc, fun d => List.mem_takeWhile_imp⟩⟩
    -- the run is as long as possible, so another word can follow only behind a blank
    have hapart : ∀ y ∈ s.spaced.head?, y.1.isWord = true → s.before ≠ [] := by
      refine ne_nil_of_isApart s.isWord_text ?_
      rw [← Spacing.text, htext]
      exact isApart_dropWhile cs
    refine ⟨s.push _ (fun _ => hrun) (fun _ => hapart), ?_, rfl⟩
    rw [Spacing.text_push, htext, text_word, String.toList_ofList, List.cons_append,
      List.takeWhile_append_dropWhile]
  | case5 c cs hblank hmark hc =>
    rw [scan, if_neg hblank, hmark] at h
    simp [hc] at h

/-! ## Lines -/

theorem Spacing.isMark_or_isWord (s : Spacing) {token : Token} (h : token ∈ s.tokens) :
    (∃ c ∈ ['(', ')', ',', '='], token.text.toList = [c]) ∨ IsWord token.text.toList := by
  obtain ⟨x, hx, rfl⟩ := List.mem_map.1 h
  cases hword : x.1.isWord with
  | true => exact .inr (s.isWord_text x hx hword)
  | false =>
    obtain ⟨c, hmark, htext⟩ := exists_ofMark?_of_isWord hword
    exact .inl ⟨c, mem_of_ofMark? hmark, htext⟩

/-- No token of a spacing has a blank. -/
theorem Spacing.isBlank_of_mem_tokens (s : Spacing) {token : Token} (h : token ∈ s.tokens) :
    ∀ c ∈ token.text.toList, isBlank c = false := by
  intro c hc
  obtain ⟨x, hx, rfl⟩ := List.mem_map.1 h
  cases hword : x.1.isWord with
  | true => exact isBlank_of_isWordCharacter ((s.isWord_text x hx hword).2 c hc)
  | false =>
    obtain ⟨d, hmark, htext⟩ := exists_ofMark?_of_isWord hword
    rw [htext, List.mem_singleton] at hc
    rw [hc, isBlank_of_ofMark? hmark]

/-- Without its blanks a spacing is the texts of its tokens. -/
theorem Spacing.filter_text (s : Spacing) :
    s.text.filter (!isBlank ·) = s.tokens.flatMap fun token => token.text.toList := by
  have hgap {gap : List Char} (h : ∀ c ∈ gap, isBlank c = true) : gap.filter (!isBlank ·) = [] := by
    rw [List.filter_eq_nil_iff]
    intro c hc
    simp [h c hc]
  rw [text, List.filter_append, hgap s.isBlank_before, List.nil_append, spacedText,
    List.filter_flatMap, tokens, List.flatMap_map]
  refine List.flatMap_congr fun x hx => ?_
  have htoken : x.1.text.toList.filter (!isBlank ·) = x.1.text.toList := by
    rw [List.filter_eq_self]
    intro c hc
    simp [s.isBlank_of_mem_tokens (List.mem_map_of_mem hx) c hc]
  rw [List.filter_append, htoken, hgap (s.isBlank_behind x hx), List.append_nil]

/-- A line is scanned into the tokens of which it is a spacing. -/
theorem scan_eq_ok_iff {line : List Char} {tokens : List Token} :
    scan line = .ok tokens ↔ ∃ s : Spacing, s.text = line ∧ s.tokens = tokens := by
  constructor
  · exact exists_spacing
  · rintro ⟨s, rfl, rfl⟩
    exact scan_text s

/-- **Scanning is exact.**  It succeeds if every character of the line is allowed, and fails with
the first that is not.  The tokens are what is left of the line without its blanks, each of them is
a mark or a run of characters of words, and they are those that stand on the line with blanks
between them, at least one between two words. -/
theorem scan_exact (line : List Char) :
    ((∃ tokens, scan line = .ok tokens) ↔ ∀ c ∈ line, IsAllowed c) ∧
      (∀ c, scan line = .error c ↔
        ∃ before behind, line = before ++ c :: behind ∧ (∀ d ∈ before, IsAllowed d) ∧
          ¬ IsAllowed c) ∧
      (∀ tokens, scan line = .ok tokens →
        tokens.flatMap (fun token => token.text.toList) = line.filter (!isBlank ·) ∧
          ∀ token ∈ tokens,
            (∃ c ∈ ['(', ')', ',', '='], token.text.toList = [c]) ∨ IsWord token.text.toList) ∧
      ∀ tokens, scan line = .ok tokens ↔ ∃ s : Spacing, s.text = line ∧ s.tokens = tokens := by
  refine ⟨?_, fun c => ?_, fun tokens h => ?_, fun tokens => scan_eq_ok_iff⟩
  · rw [exists_eq_ok_iff]
    simp only [Ne, scan_eq_error_iff, ← isForeign_eq_false_iff]
    rw [← Option.eq_none_iff_forall_ne_some, List.find?_eq_none]
    simp only [Bool.not_eq_true]
  · rw [scan_eq_error_iff, List.find?_eq_some_iff_append]
    simp only [← isForeign_eq_false_iff, Bool.not_eq_false, Bool.not_eq_true']
    tauto
  · obtain ⟨s, rfl, rfl⟩ := exists_spacing h
    exact ⟨s.filter_text.symm, fun token htoken => s.isMark_or_isWord htoken⟩

/-- Two words with a wide blank between them and marks without blanks, and a line with a digit that
is not an ASCII digit. -/
theorem scan_exact_wideBlank :
    scan "x1\u3000_y=( ".toList = .ok [word "x1", word "_y", equals, leftParen] ∧
      scan "x=²".toList = .error '²' := by
  have hwide : isBlank '\u3000' = true := by decide
  have hspace : isBlank ' ' = true := by decide
  have hx : IsWord ['x', '1'] := by decide
  have hy : IsWord ['_', 'y'] := by decide
  constructor
  · let spacing : Spacing := {
      before := []
      spaced := [(word "x1", ['\u3000']), (word "_y", []), (equals, []), (leftParen, [' '])]
      isBlank_before := List.forall_mem_nil _
      isBlank_behind := by simp [hwide, hspace]
      isWord_text := by simp [isWord, hx, hy]
      apart := by simp [isWord] }
    exact ((scan_exact _).2.2.2 _).2 ⟨spacing, rfl, rfl⟩
  · have hbefore : ∀ d ∈ ['x', '='], IsAllowed d := by simp [IsAllowed]
    exact ((scan_exact _).2.1 '²').2 ⟨['x', '='], [], by decide, hbefore, by decide⟩

end VoxelLogic.PinFile.Token
