import VoxelLogic.Proofs.PinFile.Parsed
import VoxelLogic.Proofs.Success

/-!
# Where an expression ends

The reader of expressions is put to a place in a list of tokens and stops at a later place.  What it
reads is derived by the tokens between the two places, so it depends on no other token: neither on
those before the expression nor on those behind it.  An expression is therefore never the beginning
of another one.

* `readFrom`: the reader between two places of a list, and `between`, the tokens between them.
* `readFrom_eq_ok_iff`: it reads what these tokens derive.
* `lt_of_readFrom`, `readFrom_of_agrees`: it moves on, and it reads no other token.
* `parseExpression_eq_ok_iff_readFrom`: a complete expression is read up to the end of its tokens.
* `readFrom_local`: the above together, for the reader and for complete expressions.
-/

namespace VoxelLogic.PinFile

open Text

/-- Reads an expression from a place in a list of tokens on, and tells the place where it ends. -/
def readFrom (place? : Position → Option Nat) (tokens : List Token) (start : Nat) :
    Except ExpressionFault (Formula × Nat) :=
  (readExpression place? (tokens.drop start)).map fun r =>
    (r.value, tokens.length - r.rest.length)

/-- The tokens between two places of a list. -/
def between (tokens : List Token) (start stop : Nat) : List Token :=
  (tokens.drop start).take (stop - start)

/-- Two lists have the same tokens between two places. -/
def AgreesBetween (tokens others : List Token) (start stop : Nat) : Prop :=
  ∀ i, start ≤ i → i < stop → others[i]? = tokens[i]?

variable {place? : Position → Option Nat} {tokens others : List Token} {start stop : Nat}
  {e : Formula}

/-! ## Between two places -/

theorem between_append_drop (h : start ≤ stop) :
    between tokens start stop ++ tokens.drop stop = tokens.drop start := by
  have hdrop : tokens.drop stop = (tokens.drop start).drop (stop - start) := by
    rw [List.drop_drop, Nat.add_sub_cancel' h]
  rw [between, hdrop, List.take_append_drop]

theorem between_zero_length (tokens : List Token) : between tokens 0 tokens.length = tokens := by
  rw [between, List.drop_zero, Nat.sub_zero, List.take_length]

theorem AgreesBetween.between_eq (h : AgreesBetween tokens others start stop) :
    between others start stop = between tokens start stop := by
  ext1 i
  rw [between, between, List.getElem?_take, List.getElem?_take, List.getElem?_drop,
    List.getElem?_drop]
  split
  · exact h (start + i) (Nat.le_add_right start i) (by omega)
  · rfl

/-- A list that agrees with another up to a place has tokens up to that place. -/
theorem AgreesBetween.le_length (h : AgreesBetween tokens others start stop) (hlt : start < stop)
    (hle : stop ≤ tokens.length) : stop ≤ others.length := by
  have hlast : others[stop - 1]? = tokens[stop - 1]? := h (stop - 1) (by omega) (by omega)
  rw [List.getElem?_eq_getElem (show stop - 1 < tokens.length by omega)] at hlast
  have hindex := (List.getElem?_eq_some_iff.1 hlast).1
  omega

/-! ## What is read between two places -/

/-- **What is read between two places** is what the tokens between them derive. -/
theorem readFrom_eq_ok_iff :
    readFrom place? tokens start = .ok (e, stop) ↔
      start ≤ stop ∧ stop ≤ tokens.length ∧ Derives place? (between tokens start stop) e := by
  rw [readFrom, map_eq_ok_iff]
  constructor
  · rintro ⟨r, hr, heq⟩
    obtain ⟨rfl, rfl⟩ := Prod.mk.inj heq
    obtain ⟨used, hused, hderives⟩ := (derives_of_readExpression place?).1 _ r hr
    have hpos : 0 < used.length := List.length_pos_iff.2 hderives.ne_nil
    generalize r.rest = rest at hused ⊢
    have hlength : tokens.length - start = used.length + rest.length := by
      rw [← List.length_drop, hused, List.length_append]
    have hbetween : between tokens start (tokens.length - rest.length) = used := by
      rw [between, hused, List.take_left' (by omega)]
    rw [hbetween]
    exact ⟨by omega, by omega, hderives⟩
  · rintro ⟨hle, hstop, hderives⟩
    have hreads := (settles_of_derives hderives (tokens.drop stop)).reads rfl
    rw [between_append_drop hle] at hreads
    obtain ⟨r, hr, hvalue, hrest⟩ := hreads
    refine ⟨r, hr, ?_⟩
    rw [hvalue, hrest, List.length_drop, Nat.sub_sub_self hstop]

/-- Reading moves on, and stays within the list. -/
theorem lt_of_readFrom (h : readFrom place? tokens start = .ok (e, stop)) :
    start < stop ∧ stop ≤ tokens.length := by
  obtain ⟨-, hstop, hderives⟩ := readFrom_eq_ok_iff.1 h
  have hpos := List.length_pos_iff.2 hderives.ne_nil
  rw [between, List.length_take, List.length_drop] at hpos
  omega

/-- What is read depends on no token before the start and on none from the end on. -/
theorem readFrom_of_agrees (h : readFrom place? tokens start = .ok (e, stop))
    (hagrees : AgreesBetween tokens others start stop) :
    readFrom place? others start = .ok (e, stop) := by
  obtain ⟨hlt, hle⟩ := lt_of_readFrom h
  obtain ⟨-, -, hderives⟩ := readFrom_eq_ok_iff.1 h
  refine readFrom_eq_ok_iff.2 ⟨hlt.le, hagrees.le_length hlt hle, ?_⟩
  rwa [hagrees.between_eq]

/-! ## Complete expressions -/

/-- A complete expression is read up to the end of its tokens. -/
theorem parseExpression_eq_ok_iff_readFrom :
    parseExpression place? tokens = .ok e ↔ readFrom place? tokens 0 = .ok (e, tokens.length) := by
  rw [parseExpression_eq_ok_iff, readFrom_eq_ok_iff, between_zero_length]
  simp

/-- No complete expression is a proper beginning of another one. -/
theorem eq_of_prefix_of_parseExpression {x y : List Token} {f : Formula}
    (hx : parseExpression place? x = .ok e) (hy : parseExpression place? y = .ok f)
    (h : x <+: y) : x = y := by
  rw [parseExpression_eq_ok_iff_readFrom] at hx hy
  have hagrees : AgreesBetween x y 0 x.length := by
    intro i _ hi
    obtain ⟨rest, rfl⟩ := h
    exact List.getElem?_append_left hi
  have hsame := (readFrom_of_agrees hx hagrees).symm.trans hy
  exact h.eq_of_length (Prod.mk.inj (Except.ok.inj hsame)).2

/-- **The reader moves on and reads no other token.**  Put to any place of any list of tokens, the
reader of expressions either finds a fault, or it stops at a later place that is not beyond the end
of the list, and it reads the same and stops at the same place in every list with the same tokens in
between.  So no complete expression is a proper beginning of another one. -/
theorem readFrom_local (place? : Position → Option Nat) :
    (∀ (tokens : List Token) (start : Nat),
      (∃ fault, readFrom place? tokens start = .error fault) ∨
        ∃ e stop, readFrom place? tokens start = .ok (e, stop) ∧
          start < stop ∧ stop ≤ tokens.length ∧
          ∀ others : List Token, (∀ i, start ≤ i → i < stop → others[i]? = tokens[i]?) →
            readFrom place? others start = .ok (e, stop)) ∧
    ∀ (x y : List Token) (e f : Formula), parseExpression place? x = .ok e →
      parseExpression place? y = .ok f → x <+: y → x = y := by
  refine ⟨fun tokens start => ?_, fun x y e f hx hy h => eq_of_prefix_of_parseExpression hx hy h⟩
  cases h : readFrom place? tokens start with
  | error fault => exact .inl ⟨fault, rfl⟩
  | ok found =>
    obtain ⟨e, stop⟩ := found
    obtain ⟨hlt, hle⟩ := lt_of_readFrom h
    exact .inr ⟨e, stop, rfl, hlt, hle, fun others hagrees => readFrom_of_agrees h hagrees⟩

/-- An expression in the middle of a list is read the same where something else stands before it and
nothing behind it. -/
theorem readFrom_local_inner :
    readFrom [Position.site .middle .middle .left].idxOf?
        [.rightParen, .word "not", .leftParen, .word "L", .rightParen, .comma] 1 =
      .ok (.not (.input 0), 5) ∧
    readFrom [Position.site .middle .middle .left].idxOf?
        [.word "L", .word "not", .leftParen, .word "L", .rightParen] 1 =
      .ok (.not (.input 0), 5) := by
  have hinput : Derives [Position.site .middle .middle .left].idxOf? [.word "L"] (.input 0) :=
    .input (p := .site .middle .middle .left) rfl (by decide)
  have hnot : Derives [Position.site .middle .middle .left].idxOf?
      (.word "not" :: enclosed [[.word "L"]]) (.not (.input 0)) :=
    .fixed (by decide) (.not _) (.cons hinput .nil)
  have hinner : readFrom [Position.site .middle .middle .left].idxOf?
      [.rightParen, .word "not", .leftParen, .word "L", .rightParen, .comma] 1 =
        .ok (.not (.input 0), 5) :=
    readFrom_eq_ok_iff.2 ⟨by decide, by decide, hnot⟩
  obtain ⟨hreads, -⟩ := readFrom_local [Position.site .middle .middle .left].idxOf?
  rcases hreads _ 1 with ⟨fault, hfault⟩ | ⟨e, stop, h, -, -, hlocal⟩
  · exact absurd (hfault.symm.trans hinner) nofun
  · obtain ⟨rfl, rfl⟩ := Prod.mk.inj (Except.ok.inj (h.symm.trans hinner))
    refine ⟨hinner, hlocal _ fun i hstart hstop => ?_⟩
    obtain rfl | rfl | rfl | rfl : i = 1 ∨ i = 2 ∨ i = 3 ∨ i = 4 := by omega
    all_goals rfl

end VoxelLogic.PinFile
