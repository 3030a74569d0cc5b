import VoxelLogic.Proofs.PinFile.Format

/-!
# Lines that are refused

A line can be refused for what stands on it alone, whatever the rest of the file says: it is not
valid UTF-8, it has a character that belongs to no token, or its tokens make no statement.  Of the
lines of a file the first such line ends the reading.

* `IsFirstFault`: the first item of a list that has a fault.
* `Token.isForeign`, `scan_eq_error_iff`: characters that belong to no token.
* `Misdeclares`, `ofTokens_eq_error_iff`: tokens that make no statement, and why.
* `RefusesLine`, `lineStatement_eq_error_iff`: lines that are refused.
* `HoldsNumbered`, `statementsFrom_eq_ok_iff`: the statements of lines, none of which is refused.
* `statementsFrom_eq_error_iff`: the first line that is refused is reported.
-/

namespace VoxelLogic

/-! ## The first fault -/

/-- The item at index `i` has a fault that is reported as `e`, and no item before it has any. -/
structure IsFirstFault {α : Type} (Fault : α → Error → Prop) (xs : List α) (i : Nat) (e : Error) :
    Prop where
  fault : ∃ x, xs[i]? = some x ∧ Fault x e
  before : ∀ j < i, ∀ x, xs[j]? = some x → ∀ e', ¬ Fault x e'

section FirstFault

variable {α : Type} {Fault : α → Error → Prop} {x : α} {xs ys : List α} {i : Nat} {e : Error}

theorem not_isFirstFault_nil : ¬ IsFirstFault Fault [] i e := by
  rintro ⟨⟨x, hx, -⟩, -⟩
  cases hx

/-- The first fault of a list is that of its first item or, if that has none, the first one behind
it. -/
theorem exists_isFirstFault_cons_iff :
    (∃ i, IsFirstFault Fault (x :: xs) i e) ↔
      Fault x e ∨ (∀ e', ¬ Fault x e') ∧ ∃ i, IsFirstFault Fault xs i e := by
  constructor
  · rintro ⟨i, ⟨y, hy, hfault⟩, hbefore⟩
    cases i with
    | zero =>
      obtain rfl : x = y := Option.some.inj hy
      exact .inl hfault
    | succ i =>
      refine .inr ⟨hbefore 0 (Nat.succ_pos i) x rfl, i, ⟨y, hy, hfault⟩, fun j hj => ?_⟩
      exact hbefore (j + 1) (Nat.succ_lt_succ hj)
  · rintro (hfault | ⟨hnot, i, ⟨y, hy, hfault⟩, hbefore⟩)
    · exact ⟨0, ⟨x, rfl, hfault⟩, fun j hj => absurd hj (Nat.not_lt_zero j)⟩
    · refine ⟨i + 1, ⟨y, hy, hfault⟩, fun j hj z hz => ?_⟩
      cases j with
      | zero =>
        obtain rfl : x = z := Option.some.inj hz
        exact hnot
      | succ j => exact hbefore j (Nat.lt_of_succ_lt_succ hj) z hz

/-- What follows the first item with a fault does not matter. -/
theorem IsFirstFault.of_take_eq (h : IsFirstFault Fault xs i e)
    (hsame : ys.take (i + 1) = xs.take (i + 1)) : IsFirstFault Fault ys i e := by
  have hget (j : Nat) (hj : j ≤ i) : ys[j]? = xs[j]? := by
    have hlt : j < i + 1 := Nat.lt_succ_of_le hj
    rw [← List.getElem?_take_of_lt hlt, hsame, List.getElem?_take_of_lt hlt]
  obtain ⟨⟨x, hx, hfault⟩, hbefore⟩ := h
  refine ⟨⟨x, by rw [hget i (Nat.le_refl i), hx], hfault⟩, fun j hj y hy => ?_⟩
  rw [hget j (Nat.le_of_lt hj)] at hy
  exact hbefore j hj y hy

end FirstFault

namespace PinFile

open Text

/-! ## Characters -/

/-- A character that is neither blank nor part of a token. -/
def Token.isForeign (c : Char) : Bool :=
  !isBlank c && (ofMark? c).isNone && !isWordCharacter c

theorem find?_dropWhile {α : Type} {p q : α → Bool} (h : ∀ x, p x = true → q x = false)
    (xs : List α) : (xs.dropWhile p).find? q = xs.find? q := by
  induction xs with
  | nil => rfl
  | cons x xs ih =>
    cases hx : p x with
    | true => rw [List.dropWhile_cons_of_pos hx, ih, List.find?_cons_of_neg (by simp [h x hx])]
    | false => rw [List.dropWhile_cons_of_neg (by simp [hx])]

/-- Scanning a line fails at its first foreign character. -/
theorem Token.scan_eq_error_iff {line : List Char} {c : Char} :
    Token.scan line = .error c ↔ line.find? Token.isForeign = some c := by
  have hword : ∀ d, isWordCharacter d = true → isForeign d = false := by
    intro d hd
    simp [isForeign, hd]
  induction line using Token.scan.induct with
  | case1 => simp [scan_nil]
  | case2 d cs hblank ih =>
    rw [scan_of_isBlank hblank, List.find?_cons_of_neg (by simp [isForeign, hblank])]
    exact ih
  | case3 d cs hblank mark hmark ih =>
    rw [scan_of_ofMark? hmark, List.find?_cons_of_neg (by simp [isForeign, hmark])]
    exact map_eq_error_iff.trans ih
  | case4 d cs hblank hmark hd ih =>
    rw [scan_of_isWordCharacter hd, List.find?_cons_of_neg (by simp [hword d hd]),
      ← find?_dropWhile hword]
    exact map_eq_error_iff.trans ih
  | case5 d cs hblank hmark hd =>
    have hforeign : isForeign d = true := by simp [isForeign, hblank, hmark, hd]
    rw [scan, if_neg hblank, hmark, List.find?_cons_of_pos hforeign]
    simp [hd]

/-! ## Statements -/

/-- Tokens that make no statement, and what is wrong with them. -/
inductive Misdeclares : List Token → LineFault → Prop where
  | unknownKeyword {keyword : Token} {rest : List Token}
      (hkeyword : ∀ direction : Direction, capitals keyword.text ≠ direction.keyword) :
    Misdeclares (keyword :: rest) (.unknownKeyword keyword)
  | unclosed {keyword : Token} {direction : Direction} {rest : List Token}
      (hkeyword : capitals keyword.text = direction.keyword) (hopen : .rightParen ∉ rest) :
    Misdeclares (keyword :: rest) .unclosed
  | malformed {keyword : Token} {direction : Direction} {inside rest : List Token}
      (hkeyword : capitals keyword.text = direction.keyword) (hinside : .rightParen ∉ inside)
      (hpin : ∀ pin : Declaration, inside ≠ .leftParen :: pin.tokens) :
    Misdeclares (keyword :: (inside ++ .rightParen :: rest)) (.malformed direction)
  | inputLeftover {keyword : Token} {pin : Declaration} {rest : List Token}
      (hkeyword : capitals keyword.text = "INPUT") (hclosed : pin.IsClosed) (hrest : rest ≠ []) :
    Misdeclares (keyword :: (.leftParen :: pin.tokens ++ .rightParen :: rest)) .inputLeftover
  | expressionExpected {keyword : Token} {pin : Declaration} {rest : List Token}
      (hkeyword : capitals keyword.text = "OUTPUT") (hclosed : pin.IsClosed)
      (hrest : ∀ expression, expression ≠ [] → rest ≠ .equals :: expression) :
    Misdeclares (keyword :: (.leftParen :: pin.tokens ++ .rightParen :: rest)) .expressionExpected

section Closing

variable {inside rest tokens : List Token} {closing : Token}

/-- Tokens up to the first closing bracket, and those behind it. -/
theorem eq_append_of_dropWhile
    (h : tokens.dropWhile (· != .rightParen) = closing :: rest) :
    closing = .rightParen ∧ .rightParen ∉ tokens.takeWhile (· != .rightParen) ∧
      tokens = tokens.takeWhile (· != .rightParen) ++ .rightParen :: rest := by
  obtain rfl : closing = .rightParen := by
    have hhead := List.head_dropWhile_not (· != Token.rightParen) (l := tokens) (by simp [h])
    simpa [h] using hhead
  refine ⟨rfl, fun hmem => ?_, by rw [← h, List.takeWhile_append_dropWhile]⟩
  simpa using List.mem_takeWhile_imp hmem

theorem takeWhile_closing (h : .rightParen ∉ inside) (rest : List Token) :
    (inside ++ .rightParen :: rest).takeWhile (· != .rightParen) = inside ∧
      (inside ++ .rightParen :: rest).dropWhile (· != .rightParen) = .rightParen :: rest := by
  have hinside : ∀ token ∈ inside, (token != .rightParen) = true := by
    intro token hmem
    rw [bne_iff_ne]
    rintro rfl
    exact h hmem
  have hend : ∀ token ∈ (Token.rightParen :: rest).head?, (token != .rightParen) = false := by
    rintro token ⟨⟩
    rfl
  exact ⟨takeWhile_run hinside hend, dropWhile_run hinside hend⟩

theorem Declaration.IsClosed.notMem {pin : Declaration} (h : pin.IsClosed) :
    .rightParen ∉ Token.leftParen :: pin.tokens :=
  List.not_mem_cons_of_ne_of_not_mem nofun h

theorem Declaration.ofTokens?_eq_none_iff :
    Declaration.ofTokens? inside = none ↔
      ∀ pin : Declaration, inside ≠ .leftParen :: pin.tokens := by
  rw [Option.eq_none_iff_forall_ne_some]
  exact forall_congr' fun pin => not_congr Declaration.ofTokens?_eq_some_iff

end Closing

section Statement

variable {direction : Direction} {keyword : Token} {tokens : List Token} {fault : LineFault}
  {statement : Statement}

/-- What follows a keyword without making a statement. -/
theorem misdeclares_of_afterKeyword (hkeyword : capitals keyword.text = direction.keyword)
    (h : Statement.afterKeyword direction tokens = .error fault) :
    Misdeclares (keyword :: tokens) fault := by
  unfold Statement.afterKeyword at h
  split at h
  · next hdrop =>
    cases h
    refine .unclosed hkeyword fun hmem => ?_
    simpa using List.dropWhile_eq_nil_iff.1 hdrop _ hmem
  · next closing rest hdrop =>
    obtain ⟨-, hinside, htokens⟩ := eq_append_of_dropWhile hdrop
    rw [htokens]
    split at h
    · next hpin =>
      cases h
      exact .malformed hkeyword hinside (Declaration.ofTokens?_eq_none_iff.1 hpin)
    · next pin hpin =>
      rw [Declaration.ofTokens?_eq_some_iff] at hpin
      rw [hpin] at hinside ⊢
      have hclosed : pin.IsClosed := fun hmem => hinside (List.mem_cons_of_mem _ hmem)
      split at h
      · cases h
      · cases h
        exact .inputLeftover hkeyword hclosed (List.cons_ne_nil _ _)
      · cases h
      · next hrest =>
        cases h
        refine .expressionExpected hkeyword hclosed fun expression hne heq => ?_
        obtain ⟨token, more, rfl⟩ := List.exists_cons_of_ne_nil hne
        exact hrest token more heq

theorem misdeclares_of_ofTokens (h : Statement.ofTokens tokens = .error fault) :
    Misdeclares tokens fault := by
  unfold Statement.ofTokens at h
  split at h
  · cases h
  · split at h
    · next hnone =>
      cases h
      refine .unknownKeyword fun direction hdirection => ?_
      rw [ofText?_eq_some_iff.2 hdirection] at hnone
      cases hnone
    · next hdirection =>
      exact misdeclares_of_afterKeyword (ofText?_eq_some_iff.1 hdirection) (map_eq_error_iff.1 h)

/-- The statement of tokens that begin with a keyword. -/
theorem ofTokens_of_keyword (direction : Direction)
    (hkeyword : capitals keyword.text = direction.keyword) (tokens : List Token) :
    Statement.ofTokens (keyword :: tokens) =
      (Statement.afterKeyword direction tokens).map some := by
  rw [Statement.ofTokens, ofText?_eq_some_iff.2 hkeyword]

theorem ofTokens_of_misdeclares (h : Misdeclares tokens fault) :
    Statement.ofTokens tokens = .error fault := by
  cases h with
  | @unknownKeyword keyword rest hkeyword =>
    have hnone : Direction.ofText? keyword.text = none := by
      rw [Option.eq_none_iff_forall_ne_some]
      exact fun direction => mt ofText?_eq_some_iff.1 (hkeyword direction)
    rw [Statement.ofTokens, hnone]
  | @unclosed keyword direction rest hkeyword hopen =>
    have hdrop : rest.dropWhile (· != .rightParen) = [] := by
      rw [List.dropWhile_eq_nil_iff]
      intro token hmem
      rw [bne_iff_ne]
      rintro rfl
      exact hopen hmem
    rw [ofTokens_of_keyword direction hkeyword, Statement.afterKeyword, hdrop]
    rfl
  | @malformed keyword direction inside rest hkeyword hinside hpin =>
    obtain ⟨htake, hdrop⟩ := takeWhile_closing hinside rest
    rw [ofTokens_of_keyword direction hkeyword, Statement.afterKeyword, hdrop]
    simp only [htake, Declaration.ofTokens?_eq_none_iff.2 hpin]
    rfl
  | @inputLeftover keyword pin rest hkeyword hclosed hrest =>
    obtain ⟨htake, hdrop⟩ := takeWhile_closing hclosed.notMem rest
    rw [ofTokens_of_keyword .input hkeyword, Statement.afterKeyword, hdrop]
    obtain ⟨token, more, rfl⟩ := List.exists_cons_of_ne_nil hrest
    simp only [htake, Declaration.ofTokens?_eq_some_iff.2 rfl]
    rfl
  | @expressionExpected keyword pin rest hkeyword hclosed hrest =>
    obtain ⟨htake, hdrop⟩ := takeWhile_closing hclosed.notMem rest
    rw [ofTokens_of_keyword .output hkeyword, Statement.afterKeyword, hdrop]
    simp only [htake, Declaration.ofTokens?_eq_some_iff.2 rfl]
    split
    · next heq => exact absurd heq (by simp)
    · next heq => exact absurd heq (by simp)
    · next token more _ => exact absurd rfl (hrest (token :: more) (List.cons_ne_nil _ _))
    · rfl

/-- Tokens make no statement if something is wrong with them, and that is reported. -/
theorem ofTokens_eq_error_iff :
    Statement.ofTokens tokens = .error fault ↔ Misdeclares tokens fault :=
  ⟨misdeclares_of_ofTokens, ofTokens_of_misdeclares⟩

/-- A statement is read up to the first closing bracket, so none stands inside its brackets. -/
theorem isClosed_of_ofTokens (h : Statement.ofTokens tokens = .ok (some statement)) :
    statement.declaration.IsClosed := by
  unfold Statement.ofTokens at h
  split at h
  · cases h
  · split at h
    · cases h
    · obtain ⟨found, hfound, ⟨⟩⟩ := map_eq_ok_iff.1 h
      unfold Statement.afterKeyword at hfound
      split at hfound
      · cases hfound
      · next hdrop =>
        obtain ⟨-, hinside, -⟩ := eq_append_of_dropWhile hdrop
        split at hfound
        · cases hfound
        · next pin hpin =>
          rw [Declaration.ofTokens?_eq_some_iff.1 hpin] at hinside
          have hclosed : pin.IsClosed := fun hmem => hinside (List.mem_cons_of_mem _ hmem)
          split at hfound <;> cases hfound <;> exact hclosed

end Statement

/-! ## Lines -/

/-- A line that is refused for what stands on it, and the error that says so. -/
inductive RefusesLine (number : Nat) (line : List UInt8) : Error → Prop where
  | unreadable (htext : decode? line = none) : RefusesLine number line .unreadable
  | unexpectedCharacter {text : String} {found : Char} (htext : decode? line = some text)
      (hcomment : ∀ comment, trimmed text.toList ≠ '#' :: comment)
      (hfound : text.toList.find? Token.isForeign = some found) :
    RefusesLine number line (.line number (.unexpectedCharacter found))
  | statement {text : String} {tokens : List Token} {fault : LineFault}
      (htext : decode? line = some text)
      (hcomment : ∀ comment, trimmed text.toList ≠ '#' :: comment)
      (hscan : Token.scan (trimmed text.toList) = .ok tokens) (hfault : Misdeclares tokens fault) :
    RefusesLine number line (.line number fault)

/-- The statements that numbered lines hold, with the numbers of their lines. -/
inductive HoldsNumbered : List (List UInt8 × Nat) → List NumberedStatement → Prop where
  | nil : HoldsNumbered [] []
  | idle {line : List UInt8} {number : Nat} {text : String} {rest : List (List UInt8 × Nat)}
      {found : List NumberedStatement} (htext : decode? line = some text)
      (hline : IsIdle text.toList) (hrest : HoldsNumbered rest found) :
    HoldsNumbered ((line, number) :: rest) found
  | statement {line : List UInt8} {number : Nat} {text : String} {tokens : List Token}
      {statement : Statement} {rest : List (List UInt8 × Nat)} {found : List NumberedStatement}
      (htext : decode? line = some text) (hscan : Token.scan (trimmed text.toList) = .ok tokens)
      (hdeclares : Declares tokens statement) (hclosed : statement.declaration.IsClosed)
      (hrest : HoldsNumbered rest found) :
    HoldsNumbered ((line, number) :: rest) (⟨number, statement⟩ :: found)

section Line

variable {number : Nat} {line : List UInt8} {ls : List (List UInt8)} {e : Error}

/-- Blanks at the ends of a line hide no foreign character. -/
theorem scan_trimmed_eq_error_iff {text : List Char} {found : Char} :
    Token.scan (trimmed text) = .error found ↔ text.find? Token.isForeign = some found := by
  have hblank : ∀ c, isBlank c = true → Token.isForeign c = false := by
    intro c hc
    simp [Token.isForeign, hc]
  rw [trimmed, Token.scan_rdropWhile, Token.scan_eq_error_iff, find?_dropWhile hblank]

theorem atLine_eq_error_iff {α : Type} {x : Except LineFault α} :
    atLine number x = .error e ↔ ∃ fault, x = .error fault ∧ e = .line number fault := by
  cases x with
  | error fault => simp [atLine, eq_comm]
  | ok value => simp [atLine]

/-- The lines that are refused. -/
theorem lineStatement_eq_error_iff :
    lineStatement number line = .error e ↔ RefusesLine number line e := by
  constructor
  · intro h
    unfold lineStatement at h
    split at h
    · next htext =>
      cases h
      exact .unreadable htext
    · next text htext =>
      obtain ⟨fault, hfault, rfl⟩ := atLine_eq_error_iff.1 h
      have hcomment : ∀ comment, trimmed text.toList ≠ '#' :: comment := by
        intro comment hcomment
        rw [ofLine_comment hcomment] at hfault
        cases hfault
      rw [ofLine_of_not_comment hcomment] at hfault
      split at hfault
      · next found hscan =>
        cases hfault
        exact .unexpectedCharacter htext hcomment (scan_trimmed_eq_error_iff.1 hscan)
      · next tokens hscan =>
        exact .statement htext hcomment hscan (ofTokens_eq_error_iff.1 hfault)
  · intro h
    cases h with
    | unreadable htext => rw [lineStatement, htext]
    | unexpectedCharacter htext hcomment hfound =>
      simp only [lineStatement, htext, ofLine_of_not_comment hcomment,
        scan_trimmed_eq_error_iff.2 hfound, atLine]
    | statement htext hcomment hscan hfault =>
      simp only [lineStatement, htext, ofLine_of_not_comment hcomment, hscan,
        ofTokens_eq_error_iff.2 hfault, atLine]

/-- The lines without a statement. -/
theorem lineStatement_eq_ok_none_iff :
    lineStatement number line = .ok none ↔
      ∃ text, decode? line = some text ∧ IsIdle text.toList := by
  unfold lineStatement
  cases decode? line with
  | none => exact ⟨nofun, nofun⟩
  | some text => simp [atLine_eq_ok_iff, ofLine_eq_ok_none_iff]

/-- The lines with a statement. -/
theorem lineStatement_eq_ok_some_iff {statement : Statement} :
    lineStatement number line = .ok (some statement) ↔
      ∃ text tokens, decode? line = some text ∧ Token.scan (trimmed text.toList) = .ok tokens ∧
        Declares tokens statement ∧ statement.declaration.IsClosed := by
  unfold lineStatement
  cases decode? line with
  | none => exact ⟨nofun, nofun⟩
  | some text =>
    simp only [atLine_eq_ok_iff, Option.some.injEq]
    constructor
    · intro h
      obtain ⟨tokens, hscan, hdeclares⟩ := exists_declares_of_ofLine h
      have hcomment : ∀ comment, trimmed text.toList ≠ '#' :: comment := by
        intro comment hcomment
        rw [ofLine_comment hcomment] at h
        cases h
      rw [ofLine_of_not_comment hcomment, hscan] at h
      exact ⟨text, tokens, rfl, hscan, hdeclares, isClosed_of_ofTokens h⟩
    · rintro ⟨_, tokens, rfl, hscan, hdeclares, hclosed⟩
      exact ofLine_of_declares hscan hdeclares hclosed

/-- The first line that is refused is reported. -/
theorem statementsFrom_eq_error_iff :
    statementsFrom number ls = .error e ↔
      ∃ i, IsFirstFault (fun (line, number) e => RefusesLine number line e) (ls.zipIdx number) i
        e := by
  induction ls generalizing number with
  | nil => exact ⟨nofun, fun ⟨i, h⟩ => absurd h not_isFirstFault_nil⟩
  | cons line ls ih =>
    rw [statementsFrom, List.zipIdx_cons, exists_isFirstFault_cons_iff]
    simp only [← lineStatement_eq_error_iff]
    cases hline : lineStatement number line with
    | error e₀ => simp
    | ok statement =>
      cases statement with
      | none => simp [ih, ← lineStatement_eq_error_iff]
      | some statement => simp [map_eq_error_iff, ih, ← lineStatement_eq_error_iff]

/-- The statements of lines, none of which is refused. -/
theorem statementsFrom_eq_ok_iff {found : List NumberedStatement} :
    statementsFrom number ls = .ok found ↔ HoldsNumbered (ls.zipIdx number) found := by
  induction ls generalizing number found with
  | nil =>
    constructor
    · rintro ⟨⟩
      exact .nil
    · rintro ⟨⟩
      rfl
  | cons line ls ih =>
    rw [statementsFrom, List.zipIdx_cons]
    constructor
    · intro h
      split at h
      · cases h
      · next hline =>
        obtain ⟨text, htext, hidle⟩ := lineStatement_eq_ok_none_iff.1 hline
        exact .idle htext hidle (ih.1 h)
      · next statement hline =>
        obtain ⟨more, hmore, rfl⟩ := map_eq_ok_iff.1 h
        obtain ⟨text, tokens, htext, hscan, hdeclares, hclosed⟩ :=
          lineStatement_eq_ok_some_iff.1 hline
        exact .statement htext hscan hdeclares hclosed (ih.1 hmore)
    · intro h
      cases h with
      | idle htext hline hrest =>
        rw [lineStatement_eq_ok_none_iff.2 ⟨_, htext, hline⟩]
        exact ih.2 hrest
      | statement htext hscan hdeclares hclosed hrest =>
        rw [lineStatement_eq_ok_some_iff.2 ⟨_, _, htext, hscan, hdeclares, hclosed⟩]
        exact map_eq_ok_iff.2 ⟨_, ih.2 hrest, rfl⟩

end Line

end PinFile

end VoxelLogic
