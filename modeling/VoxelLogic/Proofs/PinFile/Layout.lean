import VoxelLogic.Proofs.PinFile.Format
import VoxelLogic.Proofs.PinFile.LetterCase
import VoxelLogic.Proofs.PinFile.LineOrder
import VoxelLogic.Proofs.PinFile.RoundTrip

/-!
# Layout of pin files

What a file says is in the tokens of its lines.  Blanks between tokens, blank lines, comments, the
letter case of keywords and the letter case of masks say nothing: of two texts that differ in these
only, both are refused or both describe the same circuit.  The two texts are followed side by side
through both rounds of reading.  Their statements stand on lines with different numbers, so only the
numbers in errors may differ.

* `Declaration.Respells`, `Statement.Respells`: statements that are the same up to letter case
  (`alike_ofTokens`).
* `alike_circuit`: the second round on such statements.
* `activeLines`, `LineRespells`: the lines of a text that are neither blank nor comments, and when
  two of them have the same tokens.
* `alike_statementsFrom`: the first round on texts with the same active lines.
* `read_respelled`: both rounds.
-/

namespace VoxelLogic

open Text

namespace PinFile

/-! ## Statements -/

/-- Whether a line is refused for want of memory. -/
def LineFault.isAbrupt : LineFault → Bool
  | expression fault => fault.isAbrupt
  | _ => false

theorem isAbrupt_line (number : Nat) (fault : LineFault) :
    (Error.line number fault).isAbrupt = fault.isAbrupt := by
  cases fault with
  | expression fault => cases fault <;> rfl
  | _ => rfl

/-- Two declarations are the same up to letter case. -/
structure Declaration.Respells (pin other : Declaration) : Prop where
  position : pin.position.Respells other.position
  type : Option.Rel Token.Respells pin.type other.type

/-- Two statements are the same up to letter case. -/
inductive Statement.Respells : Statement → Statement → Prop where
  | input {pin other : Declaration} (hpin : pin.Respells other) :
    Respells (.input pin) (.input other)
  | output {pin other : Declaration} {xs ys : List Token} (hpin : pin.Respells other)
      (h : List.Forall₂ Token.Respells xs ys) : Respells (.output pin xs) (.output other ys)

theorem Direction.ofText?_congr {s t : String} (h : capitals s = capitals t) :
    Direction.ofText? s = Direction.ofText? t := by
  simp only [Direction.ofText?, h]

section Statements

variable {x y : Token} {xs ys : List Token}

theorem forall₂_takeWhile_dropWhile {α β : Type} {R : α → β → Prop} {p : α → Bool} {q : β → Bool}
    (hpq : ∀ a b, R a b → p a = q b) {xs : List α} {ys : List β} (h : List.Forall₂ R xs ys) :
    List.Forall₂ R (xs.takeWhile p) (ys.takeWhile q) ∧
      List.Forall₂ R (xs.dropWhile p) (ys.dropWhile q) := by
  induction h with
  | nil => exact ⟨.nil, .nil⟩
  | @cons a b xs ys hab hrest ih =>
    cases hp : p a with
    | true =>
      have hq : q b = true := hpq a b hab ▸ hp
      rw [List.takeWhile_cons_of_pos hp, List.takeWhile_cons_of_pos hq,
        List.dropWhile_cons_of_pos hp, List.dropWhile_cons_of_pos hq]
      exact ⟨.cons hab ih.1, ih.2⟩
    | false =>
      have hp' : ¬ p a = true := by simp [hp]
      have hq' : ¬ q b = true := by simp [← hpq a b hab, hp]
      rw [List.takeWhile_cons_of_neg hp', List.takeWhile_cons_of_neg hq',
        List.dropWhile_cons_of_neg hp', List.dropWhile_cons_of_neg hq']
      exact ⟨.nil, .cons hab hrest⟩

/-- The tokens of a declaration are respelled as those of another. -/
theorem exists_respells_of_tokens {pin : Declaration}
    (h : List.Forall₂ Token.Respells (.leftParen :: pin.tokens) ys) :
    ∃ other : Declaration, ys = .leftParen :: other.tokens ∧ pin.Respells other := by
  obtain ⟨position, type⟩ := pin
  cases h with
  | cons hparen hrest =>
    obtain rfl := hparen.eq_of_mark fun _ => by simp
    cases type with
    | none =>
      obtain ⟨other, _, hposition, hnil, rfl⟩ := List.forall₂_cons_left_iff.1 hrest
      obtain rfl := List.forall₂_nil_left_iff.1 hnil
      exact ⟨⟨other, none⟩, rfl, hposition, .none⟩
    | some type =>
      obtain ⟨other, _, hposition, hmore, rfl⟩ := List.forall₂_cons_left_iff.1 hrest
      obtain ⟨mark, _, hmark, hlast, rfl⟩ := List.forall₂_cons_left_iff.1 hmore
      obtain ⟨otherType, _, htype, hnil, rfl⟩ := List.forall₂_cons_left_iff.1 hlast
      obtain rfl := List.forall₂_nil_left_iff.1 hnil
      obtain rfl := hmark.eq_of_mark fun _ => by simp
      exact ⟨⟨other, some otherType⟩, rfl, hposition, .some htype⟩

/-- What stands in the brackets of a declaration. -/
theorem rel_ofTokens? (h : List.Forall₂ Token.Respells xs ys) :
    Option.Rel Declaration.Respells (Declaration.ofTokens? xs) (Declaration.ofTokens? ys) := by
  cases hx : Declaration.ofTokens? xs with
  | some pin =>
    rw [Declaration.ofTokens?_eq_some_iff.1 hx] at h
    obtain ⟨other, hother, hpin⟩ := exists_respells_of_tokens h
    rw [Declaration.ofTokens?_eq_some_iff.2 hother]
    exact .some hpin
  | none =>
    cases hy : Declaration.ofTokens? ys with
    | none => exact .none
    | some other =>
      have hflip : List.Forall₂ Token.Respells ys xs := h.flip.imp fun _ _ h => h.symm
      rw [Declaration.ofTokens?_eq_some_iff.1 hy] at hflip
      obtain ⟨pin, hpin, -⟩ := exists_respells_of_tokens hflip
      rw [Declaration.ofTokens?_eq_some_iff.2 hpin] at hx
      cases hx

/-- What follows the keyword of a declaration. -/
theorem alike_afterKeyword (direction : Direction) (h : List.Forall₂ Token.Respells xs ys) :
    Alike LineFault.isAbrupt Statement.Respells (Statement.afterKeyword direction xs)
      (Statement.afterKeyword direction ys) := by
  have hclosing (x y : Token) (h : x.Respells y) :
      (x != .rightParen) = (y != .rightParen) := by
    rcases h.eq_or_words with rfl | ⟨s, t, rfl, rfl⟩ <;> rfl
  obtain ⟨htake, hdrop⟩ := forall₂_takeWhile_dropWhile hclosing h
  have hpin := rel_ofTokens? htake
  unfold Statement.afterKeyword
  generalize xs.dropWhile (· != .rightParen) = xs' at hdrop ⊢
  generalize ys.dropWhile (· != .rightParen) = ys' at hdrop ⊢
  generalize Declaration.ofTokens? (xs.takeWhile (· != .rightParen)) = pin at hpin ⊢
  generalize Declaration.ofTokens? (ys.takeWhile (· != .rightParen)) = other at hpin ⊢
  cases hdrop with
  | nil => exact .error rfl
  | cons _ hrest =>
    cases hpin with
    | none => exact .error rfl
    | some hpin =>
      cases direction with
      | input =>
        cases hrest with
        | nil => exact .ok (.input hpin)
        | cons => exact .error rfl
      | output =>
        cases hrest with
        | nil => exact .error rfl
        | @cons x y _ _ hequals hexpression =>
          rcases hequals.eq_or_words with rfl | ⟨s, t, rfl, rfl⟩
          · cases x with
            | equals =>
              cases hexpression with
              | nil => exact .error rfl
              | cons hfirst hmore => exact .ok (.output hpin (.cons hfirst hmore))
            | leftParen | rightParen | comma | word => exact .error rfl
          · exact .error rfl

/-- The statement of a line that is not blank. -/
theorem alike_ofTokens (h : List.Forall₂ Token.Respells xs ys) :
    Alike LineFault.isAbrupt (Option.Rel Statement.Respells) (Statement.ofTokens xs)
      (Statement.ofTokens ys) := by
  cases h with
  | nil => exact .ok .none
  | cons hkeyword hrest =>
    rw [Statement.ofTokens, Statement.ofTokens, Direction.ofText?_congr hkeyword.capitals_eq]
    cases Direction.ofText? _ with
    | none => exact .error rfl
    | some direction => exact (alike_afterKeyword direction hrest).map fun _ _ h => .some h

end Statements

/-! ## Pins -/

section Pins

variable {α β : Type} {R : α → β → Prop} {x : Except LineFault α} {y : Except LineFault β}
  {pin other : Declaration} {xs ys : List Token} {found others : List NumberedStatement}

/-- Faults of lines with different numbers. -/
theorem alike_atLine (h : Alike LineFault.isAbrupt R x y) (number place : Nat) :
    Alike Error.isAbrupt R (atLine number x) (atLine place y) := by
  cases h with
  | error h =>
    refine .error ?_
    rw [isAbrupt_line, isAbrupt_line, h]
  | ok h => exact .ok h

/-- A type is read from its capitals. -/
theorem alike_pinType {type otherType : Option Token}
    (h : Option.Rel Token.Respells type otherType) :
    Alike LineFault.isAbrupt Eq (pinType type) (pinType otherType) := by
  cases h with
  | none => exact .refl _
  | @some x y h =>
    have hdecimal : ofDecimal? x.text.toList = ofDecimal? y.text.toList := by
      rw [← ofDecimal?_capitals x.text, h.capitals_eq, ofDecimal?_capitals]
    rw [pinType, pinType, h.capitals_eq, hdecimal]
    split
    · exact .refl _
    · split
      · exact .error rfl
      · split
        · exact .refl _
        · exact .error rfl

theorem alike_readPosition {x y : Token} (h : x.Respells y) :
    Alike Error.isAbrupt Eq (Position.read x.text) (Position.read y.text) := by
  rcases h.eq_or_ofToken?_eq_none with rfl | ⟨hx, hy⟩
  · exact .refl _
  · rw [Position.read, Position.read, hx, hy]
    exact .error rfl

theorem alike_inputPin (h : pin.Respells other) (number place : Nat) :
    Alike Error.isAbrupt Eq (inputPin number pin) (inputPin place other) := by
  simp only [inputPin, do_eq_bind]
  refine (alike_atLine (alike_pinType h.type) number place).bind ?_
  rintro type _ rfl
  refine (alike_readPosition h.position).bind ?_
  rintro position _ rfl
  exact .refl _

theorem alike_behaviour (inputs : List Position) (h : List.Forall₂ Token.Respells xs ys) :
    Alike LineFault.isAbrupt Eq (behaviour inputs xs) (behaviour inputs ys) := by
  rcases (alike_parseExpression inputs.idxOf? h).cases with
    ⟨e, f, he, hf, hkind⟩ | ⟨f, _, hx, hy, rfl⟩
  · rw [behaviour_of_parseExpression_eq_error he, behaviour_of_parseExpression_eq_error hf]
    exact .error hkind
  · rw [behaviour_of_parseExpression hx, behaviour_of_parseExpression hy]
    exact .refl _

theorem alike_outputPin (inputs : List Position) (hpin : pin.Respells other)
    (h : List.Forall₂ Token.Respells xs ys) (number place : Nat) :
    Alike Error.isAbrupt Eq (outputPin inputs number pin xs) (outputPin inputs place other ys) := by
  simp only [outputPin, do_eq_bind]
  refine (alike_atLine (alike_pinType hpin.type) number place).bind ?_
  rintro type _ rfl
  refine (alike_atLine (alike_behaviour inputs h) number place).bind ?_
  rintro behaviour _ rfl
  refine (alike_readPosition hpin.position).bind ?_
  rintro position _ rfl
  exact .refl _

/-- Statements on other lines that are the same up to letter case. -/
def NumberedStatement.Respells (numbered other : NumberedStatement) : Prop :=
  numbered.statement.Respells other.statement

theorem alike_inputPins (h : List.Forall₂ NumberedStatement.Respells found others) :
    Alike Error.isAbrupt Eq (inputPins found) (inputPins others) := by
  induction h with
  | nil => exact .refl _
  | @cons numbered other found others hfirst _ ih =>
    obtain ⟨number, statement⟩ := numbered
    obtain ⟨place, otherStatement⟩ := other
    cases hfirst with
    | input hpin =>
      simp only [inputPins, do_eq_bind]
      refine (alike_inputPin hpin number place).bind ?_
      rintro first _ rfl
      refine ih.bind ?_
      rintro more _ rfl
      exact .refl _
    | output => exact ih

theorem alike_outputPins (inputs : List Position)
    (h : List.Forall₂ NumberedStatement.Respells found others) :
    Alike Error.isAbrupt Eq (outputPins inputs found) (outputPins inputs others) := by
  induction h with
  | nil => exact .refl _
  | @cons numbered other found others hfirst _ ih =>
    obtain ⟨number, statement⟩ := numbered
    obtain ⟨place, otherStatement⟩ := other
    cases hfirst with
    | input => exact ih
    | output hpin htokens =>
      simp only [outputPins, do_eq_bind]
      refine (alike_outputPin inputs hpin htokens number place).bind ?_
      rintro first _ rfl
      refine ih.bind ?_
      rintro more _ rfl
      exact .refl _

theorem alike_circuit (h : List.Forall₂ NumberedStatement.Respells found others) :
    Alike Error.isAbrupt Eq (circuit found) (circuit others) := by
  simp only [circuit, do_eq_bind]
  refine (alike_inputPins h).bind ?_
  rintro inputs _ rfl
  refine (Alike.refl (Circuit.empty.withInputs inputs)).bind ?_
  rintro c _ rfl
  refine (alike_outputPins c.inputPositions h).bind ?_
  rintro outputs _ rfl
  exact .refl _

end Pins

/-! ## Lines -/

/-- Two lines have the same tokens up to letter case. -/
def LineRespells (line other : List Char) : Prop :=
  ∃ xs ys, Token.scan line = .ok xs ∧ Token.scan other = .ok ys ∧
    List.Forall₂ Token.Respells xs ys

/-- Whether a line without blanks at its ends is neither empty nor a comment. -/
def isActive (line : List Char) : Bool := !line.isEmpty && line.head? != some '#'

/-- The lines of a text that are neither blank nor comments, without the blanks at their ends. -/
def activeLines (text : String) : List (List Char) :=
  ((text.toList.splitOn '\n').map trimmed).filter isActive

/-- The active lines of a text that was joined of lines. -/
theorem activeLines_join {texts : List String} (h : ∀ text ∈ texts, '\n' ∉ text.toList) :
    activeLines (String.join (texts.map (· ++ "\n"))) =
      (texts.map fun text => trimmed text.toList).filter isActive := by
  have hlast : [trimmed []].filter isActive = [] := rfl
  rw [activeLines, splitOn_join h, List.map_append, List.filter_append, List.map_map,
    List.map_singleton, hlast, List.append_nil]
  rfl

section Lines

variable {line other : List Char} {ls ms : List (List Char)}

theorem isIdle_of_not_isActive (h : isActive (trimmed line) = false) : IsIdle line := by
  cases htrimmed : trimmed line with
  | nil => exact .inl htrimmed
  | cons c cs =>
    rw [htrimmed, isActive] at h
    obtain rfl : c = '#' := by simpa using h
    exact .inr ⟨cs, htrimmed⟩

/-- The statements of two lines with the same tokens. -/
theorem alike_ofLine (hline : isActive (trimmed line) = true)
    (hother : isActive (trimmed other) = true) (h : LineRespells (trimmed line) (trimmed other)) :
    Alike LineFault.isAbrupt (Option.Rel Statement.Respells) (Statement.ofLine line)
      (Statement.ofLine other) := by
  obtain ⟨xs, ys, hxs, hys, htokens⟩ := h
  have hcomment {line : List Char} (h : isActive (trimmed line) = true) (comment : List Char) :
      trimmed line ≠ '#' :: comment := by
    intro htrimmed
    rw [htrimmed] at h
    cases h
  rw [ofLine_of_not_comment (hcomment hline), ofLine_of_not_comment (hcomment hother), hxs, hys]
  exact alike_ofTokens htokens

/-- Lines as bytes. -/
def encodeLines (ls : List (List Char)) : List (List UInt8) :=
  ls.map fun line => encode (String.ofList line)

theorem lineStatement_encode_ofList (number : Nat) (line : List Char) :
    lineStatement number (encode (String.ofList line)) = atLine number (Statement.ofLine line) := by
  rw [lineStatement_encode, String.toList_ofList]

/-- Lines without a statement are passed over. -/
theorem statementsFrom_append_of_idle (h : ∀ line ∈ ls, isActive (trimmed line) = false)
    (number : Nat) (rest : List (List UInt8)) :
    statementsFrom number (encodeLines ls ++ rest) = statementsFrom (number + ls.length) rest := by
  induction ls generalizing number with
  | nil => rfl
  | cons line ls ih =>
    rw [List.forall_mem_cons] at h
    have hline : Statement.ofLine (String.ofList line).toList = .ok none := by
      rw [String.toList_ofList]
      exact ofLine_eq_ok_none_iff.2 (isIdle_of_not_isActive h.1)
    have hlength : number + (line :: ls).length = number + 1 + ls.length := by
      rw [List.length_cons]
      omega
    rw [encodeLines, List.map_cons, List.cons_append, statementsFrom_cons_none hline, hlength]
    exact ih h.2 (number + 1)

/-- Idle lines, wherever they stand, do not change the statements. -/
theorem alike_statementsFrom
    (h : List.Forall₂ LineRespells ((ls.map trimmed).filter isActive)
      ((ms.map trimmed).filter isActive)) (number place : Nat) :
    Alike Error.isAbrupt (List.Forall₂ NumberedStatement.Respells)
      (statementsFrom number (encodeLines ls)) (statementsFrom place (encodeLines ms)) := by
  rw [List.filter_map, List.filter_map, List.forall₂_map_left_iff, List.forall₂_map_right_iff] at h
  generalize hls : ls.filter (isActive ∘ trimmed) = active at h
  generalize hms : ms.filter (isActive ∘ trimmed) = others at h
  induction h generalizing ls ms number place with
  | nil =>
    have hidle {ls : List (List Char)} (h : ls.filter (isActive ∘ trimmed) = []) (number : Nat) :
        statementsFrom number (encodeLines ls) = .ok [] := by
      have hls : ∀ line ∈ ls, isActive (trimmed line) = false := by simpa using h
      have hpassed := statementsFrom_append_of_idle hls number []
      rwa [List.append_nil, statementsFrom] at hpassed
    rw [hidle hls, hidle hms]
    exact .ok .nil
  | @cons line other active others hsame _ ih =>
    obtain ⟨before, ls, rfl, hbefore, hline, rfl⟩ := List.filter_eq_cons_iff.1 hls
    obtain ⟨beforeOther, ms, rfl, hbeforeOther, hother, rfl⟩ := List.filter_eq_cons_iff.1 hms
    have hsplit (before : List (List Char)) (line : List Char) (ls : List (List Char)) :
        encodeLines (before ++ line :: ls) =
          encodeLines before ++ encode (String.ofList line) :: encodeLines ls := by
      simp [encodeLines]
    rw [hsplit, hsplit, statementsFrom_append_of_idle (by simpa using hbefore),
      statementsFrom_append_of_idle (by simpa using hbeforeOther), statementsFrom, statementsFrom,
      lineStatement_encode_ofList, lineStatement_encode_ofList]
    rcases (alike_atLine (alike_ofLine hline hother hsame) (number + before.length)
        (place + beforeOther.length)).cases with
      ⟨e, f, he, hf, hkind⟩ | ⟨statement?, other?, hstatement, hstatement', hrel⟩
    · rw [he, hf]
      exact .error hkind
    · rw [hstatement, hstatement']
      cases hrel with
      | none => exact ih _ _ rfl rfl
      | some hstatements =>
        exact (ih _ _ rfl rfl).map fun _ _ hmore => .cons hstatements hmore

end Lines

/-- **Layout and letter case do not matter.**  If the lines of two texts that are neither blank nor
comments have the same tokens, up to the letter case of keywords and masks, then both texts describe
the same circuit, or both are refused, and for want of memory only together. -/
theorem read_respelled {s t : String}
    (h : List.Forall₂ LineRespells (activeLines s) (activeLines t)) :
    (∃ c, read (encode s) = .ok c ∧ read (encode t) = .ok c) ∨
      ∃ e f, read (encode s) = .error e ∧ read (encode t) = .error f ∧
        e.isAbrupt = f.isAbrupt := by
  have hstatements : Alike Error.isAbrupt (List.Forall₂ NumberedStatement.Respells)
      (statements (encode s)) (statements (encode t)) := by
    rw [statements, statements, lines_encode, lines_encode]
    exact alike_statementsFrom h 1 1
  have hread : Alike Error.isAbrupt Eq (read (encode s)) (read (encode t)) :=
    hstatements.bind fun _ _ hfound => alike_circuit hfound
  rcases hread.cases with ⟨e, f, he, hf, hkind⟩ | ⟨c, _, hc, hd, rfl⟩
  · exact .inr ⟨e, f, he, hf, hkind⟩
  · exact .inl ⟨c, hc, hd⟩

/-- The file that compares two bits, in another layout and other letter case. -/
def respelledComparison : List String :=
  ["", "  input ( L )\r", "# and", "\tInput(R,7)", "Output( FT )=xor( L,R ) ",
    "output(FD) = AND(L, not(R))"]

/-- It is read as the same circuit. -/
theorem read_respelled_comparison :
    List.Forall₂ LineRespells (activeLines (String.join (comparison.map (· ++ "\n"))))
        (activeLines (String.join (respelledComparison.map (· ++ "\n")))) ∧
      read (fileOf respelledComparison) = .ok comparator := by
  have hlines : activeLines (String.join (comparison.map (· ++ "\n"))) =
      ["INPUT(L)".toList, "INPUT(R, 7)".toList, "OUTPUT(FT) = XOR(L, R)".toList,
        "OUTPUT(FD) = and(L, NOT(R))".toList] := by
    rw [activeLines_join (by decide)]
    decide +kernel
  have hothers : activeLines (String.join (respelledComparison.map (· ++ "\n"))) =
      ["input ( L )".toList, "Input(R,7)".toList, "Output( FT )=xor( L,R )".toList,
        "output(FD) = AND(L, not(R))".toList] := by
    rw [activeLines_join (by decide)]
    decide +kernel
  have hrest (tokens : List Token) : List.Forall₂ Token.Respells tokens tokens :=
    List.forall₂_same.2 fun token _ => .same token
  have hkeyword (s t : String) (h : capitals s = capitals t ∧ capitals s ∈ foldedWords) :
      (Token.word s).Respells (.word t) := .keyword h.1 h.2
  have hand := hkeyword "and" "AND" (by decide)
  have hnot := hkeyword "NOT" "not" (by decide)
  have hdiffer : List.Forall₂ Token.Respells differTokens
      (.word "xor" :: enclosed [[.word "L"], [.word "R"]]) :=
    .cons (hkeyword "XOR" "xor" (by decide)) (hrest _)
  have hexceed : List.Forall₂ Token.Respells exceedTokens
      (.word "AND" :: enclosed [[.word "L"], .word "not" :: enclosed [[.word "R"]]]) :=
    .cons hand (.cons (.same _) (.cons (.same _) (.cons (.same _) (.cons hnot (hrest _)))))
  have houtput (position : Token) {xs ys : List Token} (h : List.Forall₂ Token.Respells xs ys) :
      List.Forall₂ Token.Respells (enclosed [[position]] ++ .equals :: xs)
        (enclosed [[position]] ++ .equals :: ys) :=
    List.rel_append (hrest _) (.cons (.same _) h)
  have hfirst : LineRespells "INPUT(L)".toList "input ( L )".toList :=
    ⟨_, _, by decide +kernel, by decide +kernel,
      .cons (hkeyword "INPUT" "input" (by decide)) (hrest (enclosed [[.word "L"]]))⟩
  have hsecond : LineRespells "INPUT(R, 7)".toList "Input(R,7)".toList :=
    ⟨_, _, by decide +kernel, by decide +kernel,
      .cons (hkeyword "INPUT" "Input" (by decide)) (hrest (enclosed [[.word "R"], [.word "7"]]))⟩
  have hthird : LineRespells "OUTPUT(FT) = XOR(L, R)".toList "Output( FT )=xor( L,R )".toList :=
    ⟨_, _, by decide +kernel, by decide +kernel,
      .cons (hkeyword "OUTPUT" "Output" (by decide)) (houtput (.word "FT") hdiffer)⟩
  have hfourth : LineRespells "OUTPUT(FD) = and(L, NOT(R))".toList
      "output(FD) = AND(L, not(R))".toList :=
    ⟨_, _, by decide +kernel, by decide +kernel,
      .cons (hkeyword "OUTPUT" "output" (by decide)) (houtput (.word "FD") hexceed)⟩
  have hsame : List.Forall₂ LineRespells (activeLines (String.join (comparison.map (· ++ "\n"))))
      (activeLines (String.join (respelledComparison.map (· ++ "\n")))) := by
    rw [hlines, hothers]
    exact .cons hfirst (.cons hsecond (.cons hthird (.cons hfourth .nil)))
  refine ⟨hsame, ?_⟩
  rcases read_respelled hsame with ⟨c, hc, hd⟩ | ⟨e, f, he, -⟩
  · obtain rfl : comparator = c := Except.ok.inj (read_comparison.symm.trans hc)
    exact hd
  · have hread : Except.ok comparator = Except.error e := read_comparison.symm.trans he
    cases hread

end PinFile

end VoxelLogic
