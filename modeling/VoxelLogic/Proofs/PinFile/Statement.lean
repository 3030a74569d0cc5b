import VoxelLogic.PinFile.Read
import VoxelLogic.PinFile.Write
import VoxelLogic.Proofs.PinFile.Expression
import VoxelLogic.Proofs.Record.Pins

/-!
# Written pins

The line of a pin is read as a statement that declares the pin, and the statement makes the pin
again.  Only a type with code zero that is not power changes: it comes back as power, which is the
same type as far as anything else is concerned.

* `InputPin.restored`, `OutputPin.restored`: a pin as it comes back.
* `afterKeyword_input`, `afterKeyword_output`: the statement of the tokens of a declaration.
* `statement_inputLine`, `statement_outputLine`: the statement of a line.
* `inputPin_declarationOf`, `outputPin_declarationOf`: the pin of a statement.
-/

namespace VoxelLogic

/-- An input as it is read back. -/
def InputPin.restored (pin : InputPin) : InputPin :=
  ⟨pin.position, .ofCode pin.type.code, by rw [Position.takes_ofCode, pin.takes]⟩

/-- An output as it is read back. -/
def OutputPin.restored (pin : OutputPin) : OutputPin :=
  ⟨pin.position, .ofCode pin.type.code, pin.behaviour, by rw [Position.takes_ofCode, pin.takes]⟩

/-- A behaviour with a formula is that formula. -/
theorem Behaviour.eq_formula_of_formula? {behaviour : Behaviour} {f : Formula}
    (h : behaviour.formula? = some f) : behaviour = .formula f := by
  cases behaviour with
  | formula g =>
    obtain rfl : g = f := Option.some.inj h
    rfl
  | lookUp rows k => cases h
  | blackBox value? => cases h

namespace PinFile

open Text Token

/-! ## Declarations -/

/-- The tokens in the brackets of a declaration. -/
def Declaration.tokens (pin : Declaration) : List Token :=
  match pin.type with
  | none => [pin.position]
  | some type => [pin.position, .comma, type]

/-- No bracket stands inside the brackets of a declaration. -/
def Declaration.IsClosed (pin : Declaration) : Prop := .rightParen ∉ pin.tokens

/-- A declaration is read from its tokens. -/
theorem Declaration.ofTokens?_eq_some_iff {tokens : List Token} {pin : Declaration} :
    Declaration.ofTokens? tokens = some pin ↔ tokens = .leftParen :: pin.tokens := by
  obtain ⟨position, type⟩ := pin
  constructor
  · intro h
    unfold Declaration.ofTokens? at h
    split at h <;> cases h <;> rfl
  · rintro rfl
    cases type <;> rfl

theorem Declaration.IsClosed.ne_rightParen {pin : Declaration} (h : pin.IsClosed) :
    ∀ token ∈ .leftParen :: pin.tokens, (token != .rightParen) = true := by
  intro token htoken
  rw [bne_iff_ne]
  rintro rfl
  rcases List.mem_cons.1 htoken with heq | hmem
  · cases heq
  · exact h hmem

/-- The declaration of an input ends with its bracket. -/
theorem afterKeyword_input {pin : Declaration} (h : pin.IsClosed) :
    Statement.afterKeyword .input (.leftParen :: pin.tokens ++ [.rightParen]) =
      .ok (.input pin) := by
  have hend : ∀ token ∈ [Token.rightParen].head?, (token != .rightParen) = false := by
    rintro token ⟨⟩
    rfl
  rw [Statement.afterKeyword, dropWhile_run h.ne_rightParen hend]
  simp only [takeWhile_run h.ne_rightParen hend, Declaration.ofTokens?_eq_some_iff.2 rfl]

/-- The declaration of an output is followed by an equals sign and an expression. -/
theorem afterKeyword_output {pin : Declaration} (h : pin.IsClosed) {expression : List Token}
    (hne : expression ≠ []) :
    Statement.afterKeyword .output
        (.leftParen :: pin.tokens ++ .rightParen :: .equals :: expression) =
      .ok (.output pin expression) := by
  have hend : ∀ token ∈ (Token.rightParen :: .equals :: expression).head?,
      (token != .rightParen) = false := by
    rintro token ⟨⟩
    rfl
  rw [Statement.afterKeyword, dropWhile_run h.ne_rightParen hend]
  cases expression with
  | nil => exact absurd rfl hne
  | cons token expression =>
    simp only [takeWhile_run h.ne_rightParen hend, Declaration.ofTokens?_eq_some_iff.2 rfl]

/-- The declaration of a pin. -/
def declarationOf (position : Position) (type : PinType) : Declaration where
  position := .word position.token
  type := if type.isPower then none else some (.word (toString type.code.toNat))

/-- The tokens in the brackets of the declaration of a pin. -/
def declarationTokens (position : Position) (type : PinType) : List Token :=
  if type.isPower then [.word position.token]
  else [.word position.token, .comma, .word (toString type.code.toNat)]

theorem spells_declarationText (position : Position) (type : PinType) :
    Spells (declarationText position type).toList (declarationTokens position type) := by
  rw [declarationText, declarationTokens]
  split
  · exact spells_word (isWord_token position)
  · have hcode := Spells.blank (spells_word (isWord_toString type.code.toNat))
    have hcomma : Spells (',' :: ' ' :: (toString type.code.toNat).toList)
        [.comma, .word (toString type.code.toNat)] := .mark rfl hcode
    have htext : (s!"{position.token}, {type.code.toNat}").toList =
        position.token.toList ++ ',' :: ' ' :: (toString type.code.toNat).toList := by
      simp only [String.toList_append, List.append_assoc]
      rfl
    rw [htext]
    exact spells_word_append (isWord_token position) (isApart_cons (by decide) _) hcomma

theorem declarationTokens_eq (position : Position) (type : PinType) :
    declarationTokens position type = (declarationOf position type).tokens := by
  rw [declarationTokens, declarationOf]
  split <;> rfl

/-- No bracket stands inside the brackets of the declaration of a pin. -/
theorem isClosed_declarationOf (position : Position) (type : PinType) :
    (declarationOf position type).IsClosed := by
  rw [Declaration.IsClosed, ← declarationTokens_eq, declarationTokens]
  split <;> simp

/-- Digits do not spell the name of power. -/
theorem capitals_ne_power {text : String} (h : ∀ c ∈ text.toList, c.isDigit = true) :
    capitals text ≠ "POWER" := by
  rw [capitals_of_isDigit h]
  rintro rfl
  have hletter : 'P' ∈ "POWER".toList := by decide
  exact absurd (h 'P' hletter) (by decide)

/-- The type of a declaration is the type of its code. -/
theorem pinType_declarationOf (position : Position) (type : PinType) :
    pinType (declarationOf position type).type = .ok (.ofCode type.code) := by
  rw [declarationOf]
  split
  · next hpower =>
    rw [PinType.isPower_iff] at hpower
    rw [hpower]
    rfl
  · have hname : capitals (toString type.code.toNat) ≠ "POWER" :=
      capitals_ne_power fun _ hc => isDigit_of_mem_toString hc
    have hcode : UInt8.ofNat type.code.toNat = type.code := UInt8.ofNat_toNat
    simp only [pinType, Token.text, if_neg hname, ofDecimal?_toString,
      if_pos type.code.toNat_lt, hcode]

/-! ## Lines -/

/-- A line that begins with a word is neither blank nor a comment. -/
theorem ofLine_of_spells {c : Char} {text : List Char} {tokens : List Token}
    (hc : isWordCharacter c = true) (h : Spells (c :: text) tokens) :
    Statement.ofLine (c :: text) = Statement.ofTokens tokens := by
  have hdrop : (c :: text).dropWhile isBlank = c :: text :=
    List.dropWhile_cons_of_neg (by simp [isBlank_of_isWordCharacter hc])
  have hcomment : c ≠ '#' := by
    rintro rfl
    exact absurd hc (by decide)
  rw [Statement.ofLine, hdrop]
  split
  · next heq => exact absurd (List.cons.inj heq).1 hcomment
  · rw [scan_of_spells h]

/-- The line of an output with a given formula. -/
def outputLine (names : List String) (pin : OutputPin) (f : Formula) : String :=
  s!"OUTPUT({declarationText pin.position pin.type}) = {f.render names}"

/-- The line of an input, character by character. -/
theorem toList_inputLine (pin : InputPin) :
    (inputLine pin).toList =
      "INPUT".toList ++ '(' :: ((declarationText pin.position pin.type).toList ++ [')']) := by
  simp only [inputLine, String.toList_append, List.append_assoc]
  rfl

/-- The line of an output, character by character. -/
theorem toList_outputLine (names : List String) (pin : OutputPin) (f : Formula) :
    (outputLine names pin f).toList =
      "OUTPUT".toList ++ '(' :: ((declarationText pin.position pin.type).toList ++
        ')' :: ' ' :: '=' :: ' ' :: (f.render names).toList) := by
  simp only [outputLine, String.toList_append, List.append_assoc]
  rfl

theorem spells_inputLine (pin : InputPin) :
    Spells (inputLine pin).toList
      (.word "INPUT" :: .leftParen :: declarationTokens pin.position pin.type ++
        [.rightParen]) := by
  have hword : IsWord "INPUT".toList := by decide
  have hclosing : Spells [')'] [.rightParen] := .mark rfl .nil
  have hinside := (spells_declarationText pin.position pin.type).append
    (isApart_cons (by decide) []) hclosing
  rw [toList_inputLine]
  exact spells_word_append hword (isApart_cons (by decide) _) (.mark rfl hinside)

theorem spells_outputLine {names : List String} (h : ∀ name ∈ names, IsWord name.toList)
    (pin : OutputPin) (f : Formula) :
    Spells (outputLine names pin f).toList
      (.word "OUTPUT" :: .leftParen :: declarationTokens pin.position pin.type ++
        .rightParen :: .equals :: tokensOf names f) := by
  have hword : IsWord "OUTPUT".toList := by decide
  have hequals : Spells ('=' :: ' ' :: (f.render names).toList) (.equals :: tokensOf names f) :=
    .mark rfl (.blank (spells_render h f))
  have hclosing : Spells (')' :: ' ' :: '=' :: ' ' :: (f.render names).toList)
      (.rightParen :: .equals :: tokensOf names f) := .mark rfl (.blank hequals)
  have hinside := (spells_declarationText pin.position pin.type).append
    (isApart_cons (by decide) _) hclosing
  rw [toList_outputLine]
  exact spells_word_append hword (isApart_cons (by decide) _) (.mark rfl hinside)

/-- The statement of the line of an input declares the input. -/
theorem statement_inputLine (pin : InputPin) :
    Statement.ofLine (inputLine pin).toList =
      .ok (some (.input (declarationOf pin.position pin.type))) := by
  have hspells := spells_inputLine pin
  have hletter : isWordCharacter 'I' = true := by decide
  have hdirection : Direction.ofText? "INPUT" = some .input := by decide
  rw [toList_inputLine] at hspells ⊢
  have hline := ofLine_of_spells hletter hspells
  rw [List.cons_append, Statement.ofTokens, Token.text, hdirection] at hline
  rw [declarationTokens_eq] at hline
  simp only [afterKeyword_input (isClosed_declarationOf _ _)] at hline
  exact hline

/-- The statement of the line of an output declares the output and holds the tokens of the
formula. -/
theorem statement_outputLine {names : List String} (h : ∀ name ∈ names, IsWord name.toList)
    (pin : OutputPin) (f : Formula) :
    Statement.ofLine (outputLine names pin f).toList =
      .ok (some (.output (declarationOf pin.position pin.type) (tokensOf names f))) := by
  have hspells := spells_outputLine h pin f
  have hletter : isWordCharacter 'O' = true := by decide
  have hdirection : Direction.ofText? "OUTPUT" = some .output := by decide
  rw [toList_outputLine] at hspells ⊢
  have hline := ofLine_of_spells hletter hspells
  rw [List.cons_append, Statement.ofTokens, Token.text, hdirection] at hline
  rw [declarationTokens_eq] at hline
  simp only [afterKeyword_output (isClosed_declarationOf _ _) (tokensOf_ne_nil names f)] at hline
  exact hline

/-- An empty line holds no statement. -/
theorem ofLine_empty : Statement.ofLine "".toList = .ok none := by
  have hscan : Token.scan ("".toList.dropWhile isBlank) = .ok [] := scan_nil
  rw [Statement.ofLine]
  split
  · rfl
  · rw [hscan]
    rfl

/-! ## Pins -/

@[simp] theorem read_token (p : Position) : Position.read p.token = .ok p := by
  rw [Position.read, Position.ofToken?_token]

/-- The declaration of an input makes the input. -/
theorem inputPin_declarationOf (line : Nat) (pin : InputPin) :
    inputPin line (declarationOf pin.position pin.type) = .ok pin.restored := by
  simp only [inputPin, do_eq_bind, bind_eq_ok_iff, pinType_declarationOf]
  refine ⟨.ofCode pin.type.code, rfl, pin.position, read_token pin.position, ?_⟩
  exact InputPin.make_eq_ok_iff.2 ⟨rfl, rfl⟩

theorem behaviour_of_parseExpression {inputs : List Position} {tokens : List Token} {f : Formula}
    (h : parseExpression inputs.idxOf? tokens = .ok f) :
    behaviour inputs tokens = .ok (.formula f) := by
  rw [behaviour, h]

theorem behaviour_of_parseExpression_eq_error {inputs : List Position} {tokens : List Token}
    {fault : ExpressionFault} (h : parseExpression inputs.idxOf? tokens = .error fault) :
    behaviour inputs tokens = .error (.expression fault) := by
  rw [behaviour, h]

/-- The declaration of an output with the tokens of its formula makes the output. -/
theorem outputPin_declarationOf {inputs : List Position} {pin : OutputPin} {f : Formula}
    {tokens : List Token} (hf : pin.behaviour.formula? = some f)
    (h : parseExpression inputs.idxOf? tokens = .ok f) (line : Nat) :
    outputPin inputs line (declarationOf pin.position pin.type) tokens = .ok pin.restored := by
  have hbehaviour := Behaviour.eq_formula_of_formula? hf
  simp only [outputPin, do_eq_bind, bind_eq_ok_iff, pinType_declarationOf,
    behaviour_of_parseExpression h]
  refine ⟨.ofCode pin.type.code, rfl, _, rfl, pin.position, read_token pin.position, ?_⟩
  exact OutputPin.make_eq_ok_iff.2 ⟨rfl, rfl, hbehaviour⟩

/-- The declaration of an output with an expression that is refused is refused. -/
theorem outputPin_declarationOf_eq_error {inputs : List Position} {tokens : List Token}
    {fault : ExpressionFault} (h : parseExpression inputs.idxOf? tokens = .error fault) (line : Nat)
    (pin : OutputPin) :
    outputPin inputs line (declarationOf pin.position pin.type) tokens =
      .error (.line line (.expression fault)) := by
  rw [outputPin, pinType_declarationOf, behaviour_of_parseExpression_eq_error h]
  rfl

end PinFile

end VoxelLogic
