import VoxelLogic.Proofs.PinFile.Accepted

/-!
# The format of pin files

A text is accepted if it has the form of a pin file and its declarations fit together.  Both are
said here without a word about how a file is read: what stands on a line, what a declaration says,
and what the declarations of a file must satisfy as a whole.

* `IsIdle`, `Declares`, `Holds`: the lines of a file and the statements that they hold.
* `Declaration.Describes`, `DescribesInput`, `DescribesOutput`: what a declaration says of its pin.
* `IsWellFormed`: what the statements of a file must satisfy.
* `IsDeclaredBy`: the circuit of the statements of a file.
* `read_encode_format`: the texts that are accepted, and the circuits that they describe.
-/

namespace VoxelLogic.PinFile

open Text

/-! ## Lines -/

/-- A line without the blanks at its ends. -/
def trimmed (line : List Char) : List Char := (line.dropWhile isBlank).rdropWhile isBlank

/-- A line that is blank or a comment. -/
def IsIdle (line : List Char) : Prop :=
  trimmed line = [] ∨ ∃ comment, trimmed line = '#' :: comment

/-- The tokens of a statement.  Its keyword may be in any letter case. -/
inductive Declares : List Token → Statement → Prop where
  /-- `INPUT ( position )` or `INPUT ( position , type )`. -/
  | input {keyword : Token} {pin : Declaration} (hkeyword : capitals keyword.text = "INPUT") :
    Declares (keyword :: (.leftParen :: pin.tokens ++ [.rightParen])) (.input pin)
  /-- `OUTPUT ( position ) = expression` or `OUTPUT ( position , type ) = expression`. -/
  | output {keyword : Token} {pin : Declaration} {expression : List Token}
      (hkeyword : capitals keyword.text = "OUTPUT") (hne : expression ≠ []) :
    Declares (keyword :: (.leftParen :: pin.tokens ++ .rightParen :: .equals :: expression))
      (.output pin expression)

/-- The statements that some lines hold, in the order of the lines. -/
inductive Holds : List (List Char) → List Statement → Prop where
  | nil : Holds [] []
  | idle {line : List Char} {rest : List (List Char)} {found : List Statement}
      (hline : IsIdle line) (hrest : Holds rest found) : Holds (line :: rest) found
  | statement {line : List Char} {rest : List (List Char)} {found : List Statement}
      {tokens : List Token} {statement : Statement}
      (hscan : Token.scan (trimmed line) = .ok tokens) (hdeclares : Declares tokens statement)
      (hrest : Holds rest found) : Holds (line :: rest) (statement :: found)

/-! ## Declarations -/

/-- The code of a type: that of power if there is no type, or else `POWER` in any letter case, or
the value of decimal digits. -/
inductive HasCode : Option Token → UInt8 → Prop where
  | absent : HasCode none 0
  | power {type : Token} (htype : capitals type.text = "POWER") : HasCode (some type) 0
  | decimal {type : Token} {code : UInt8} (hne : type.text.toList ≠ [])
      (hdigits : ∀ c ∈ type.text.toList, c.isDigit = true)
      (hvalue : Nat.ofDigitChars 10 type.text.toList 0 = code.toNat) : HasCode (some type) code

/-- A declaration gives a position of the catalog and a code to its pin, and gives the code of power
to a position that carries state. -/
structure Declaration.Describes (declaration : Declaration) (position : Position) (code : UInt8) :
    Prop where
  text_eq : declaration.position.text = position.token
  hasCode : HasCode declaration.type code
  eq_zero : position.isState = true → code = 0

/-- A declaration describes an input. -/
def DescribesInput (declaration : Declaration) (pin : InputPin) : Prop :=
  ∃ code, declaration.Describes pin.position code ∧ pin.type = .ofCode code

/-- A declaration and the tokens of its expression describe an output over some inputs. -/
def DescribesOutput (place? : Position → Option Nat) (declared : Declaration × List Token)
    (pin : OutputPin) : Prop :=
  ∃ code f, declared.1.Describes pin.position code ∧ pin.type = .ofCode code ∧
    Derives place? declared.2 f ∧ pin.behaviour.formula? = some f

/-- What a statement says of its pin. -/
def Statement.declaration : Statement → Declaration
  | .input pin => pin
  | .output pin _ => pin

/-- The positions of the inputs that statements declare, as they are written. -/
def inputTexts (found : List Statement) : List String :=
  (found.filterMap Statement.input?).map fun pin => pin.position.text

/-- The positions of the outputs that statements declare, as they are written. -/
def outputTexts (found : List Statement) : List String :=
  (found.filterMap Statement.output?).map fun declared => declared.1.position.text

/-- The place of a position among the inputs that statements declare. -/
def declaredPlace? (found : List Statement) (p : Position) : Option Nat :=
  (inputTexts found).idxOf? p.token

/-- What the statements of a file must satisfy. -/
structure IsWellFormed (found : List Statement) : Prop where
  described : ∀ statement ∈ found, ∃ position code,
    statement.declaration.Describes position code
  inputs_nodup : (inputTexts found).Nodup
  outputs_nodup : (outputTexts found).Nodup
  expressions : ∀ declared ∈ found.filterMap Statement.output?,
    ∃ f, Derives (declaredPlace? found) declared.2 f

/-- The pins of a circuit are those that statements declare, in their order. -/
structure IsDeclaredBy (d : Circuit) (found : List Statement) : Prop where
  inputs : List.Forall₂ DescribesInput (found.filterMap Statement.input?) d.inputs
  outputs : List.Forall₂ (DescribesOutput (declaredPlace? found))
    (found.filterMap Statement.output?) d.outputs

/-! ## Reading a line -/

theorem rdropWhile_cons_of_neg {c : Char} (h : isBlank c = false) (cs : List Char) :
    (c :: cs).rdropWhile isBlank = c :: cs.rdropWhile isBlank := by
  have hneg : ¬ isBlank c = true := by simp [h]
  induction cs using List.reverseRecOn with
  | nil => rw [List.rdropWhile_nil, List.rdropWhile_singleton, if_neg hneg]
  | append_singleton cs d ih =>
    rw [← List.cons_append]
    by_cases hd : isBlank d = true
    · rw [List.rdropWhile_concat_pos _ _ _ hd, List.rdropWhile_concat_pos _ _ _ hd, ih]
    · rw [List.rdropWhile_concat_neg _ _ _ hd, List.rdropWhile_concat_neg _ _ _ hd,
        List.cons_append]

/-- A line begins after its blanks with the character that its trimmed form begins with. -/
theorem trimmed_cases (line : List Char) :
    (line.dropWhile isBlank = [] ∧ trimmed line = []) ∨
      ∃ c cs, isBlank c = false ∧ line.dropWhile isBlank = c :: cs ∧
        trimmed line = c :: cs.rdropWhile isBlank := by
  rw [trimmed]
  cases hdrop : line.dropWhile isBlank with
  | nil => exact .inl ⟨rfl, List.rdropWhile_nil _⟩
  | cons c cs =>
    have hc : isBlank c = false := by
      have hhead := List.head_dropWhile_not isBlank (l := line) (by simp [hdrop])
      simpa [hdrop] using hhead
    exact .inr ⟨c, cs, hc, rfl, rdropWhile_cons_of_neg hc cs⟩

/-- A line that begins with `#` is a comment. -/
theorem ofLine_comment {line comment : List Char} (h : trimmed line = '#' :: comment) :
    Statement.ofLine line = .ok none := by
  rcases trimmed_cases line with ⟨-, hnil⟩ | ⟨c, cs, -, hdrop, htrimmed⟩
  · rw [hnil] at h
    cases h
  · rw [htrimmed] at h
    obtain ⟨rfl, -⟩ := List.cons.inj h
    rw [Statement.ofLine, hdrop]
    rfl

/-- A line that is no comment is read from its tokens. -/
theorem ofLine_of_not_comment {line : List Char} (h : ∀ comment, trimmed line ≠ '#' :: comment) :
    Statement.ofLine line =
      match Token.scan (trimmed line) with
      | .error found => .error (.unexpectedCharacter found)
      | .ok tokens => Statement.ofTokens tokens := by
  have hscan : Token.scan (trimmed line) = Token.scan (line.dropWhile isBlank) :=
    Token.scan_rdropWhile _
  rw [hscan, Statement.ofLine]
  split
  · next cs hdrop =>
    rcases trimmed_cases line with ⟨hnil, -⟩ | ⟨c, cs', -, hdrop', htrimmed⟩
    · rw [hdrop] at hnil
      cases hnil
    · rw [hdrop] at hdrop'
      obtain ⟨rfl, rfl⟩ := List.cons.inj hdrop'
      exact absurd htrimmed (h _)
  · rfl

/-- A character that is not blank begins a token. -/
theorem scan_ne_nil {c : Char} (h : isBlank c = false) (cs : List Char) :
    Token.scan (c :: cs) ≠ .ok [] := by
  rw [Token.scan, if_neg (by simp [h])]
  split
  · rw [Ne, map_eq_ok_iff]
    rintro ⟨rest, -, hcons⟩
    cases hcons
  · split
    · rw [Ne, map_eq_ok_iff]
      rintro ⟨rest, -, hcons⟩
      cases hcons
    · intro hok
      cases hok

theorem ofText?_eq_some_iff {text : String} {direction : Direction} :
    Direction.ofText? text = some direction ↔ capitals text = direction.keyword := by
  unfold Direction.ofText?
  split
  · next h =>
    rw [h]
    cases direction <;> decide
  · next h =>
    rw [h]
    cases direction <;> decide
  · next hinput houtput =>
    cases direction with
    | input => exact ⟨nofun, fun h => absurd h hinput⟩
    | output => exact ⟨nofun, fun h => absurd h houtput⟩

/-- What follows a keyword that makes a statement. -/
theorem declares_of_afterKeyword {direction : Direction} {keyword : Token} {tokens : List Token}
    {statement : Statement} (hkeyword : capitals keyword.text = direction.keyword)
    (h : Statement.afterKeyword direction tokens = .ok statement) :
    Declares (keyword :: tokens) statement := by
  unfold Statement.afterKeyword at h
  split at h
  · cases h
  · next closing rest hdrop =>
    split at h
    · cases h
    · next pin hpin =>
      obtain rfl : closing = .rightParen := by
        have hhead := List.head_dropWhile_not (· != Token.rightParen) (l := tokens)
          (by simp [hdrop])
        simpa [hdrop] using hhead
      have htokens : tokens = .leftParen :: pin.tokens ++ .rightParen :: rest := by
        rw [← Declaration.ofTokens?_eq_some_iff.1 hpin, ← hdrop, List.takeWhile_append_dropWhile]
      rw [htokens]
      split at h <;> cases h
      · exact .input hkeyword
      · exact .output hkeyword (List.cons_ne_nil _ _)

theorem declares_of_ofTokens {tokens : List Token} {statement : Statement}
    (h : Statement.ofTokens tokens = .ok (some statement)) : Declares tokens statement := by
  unfold Statement.ofTokens at h
  split at h
  · cases h
  · split at h
    · cases h
    · next hdirection =>
      obtain ⟨found, hfound, ⟨⟩⟩ := map_eq_ok_iff.1 h
      exact declares_of_afterKeyword (ofText?_eq_some_iff.1 hdirection) hfound

/-- The tokens of a statement are read as the statement, unless a bracket stands inside its
brackets. -/
theorem ofTokens_of_declares {tokens : List Token} {statement : Statement}
    (h : Declares tokens statement) (hclosed : statement.declaration.IsClosed) :
    Statement.ofTokens tokens = .ok (some statement) := by
  cases h with
  | @input keyword pin hkeyword =>
    have hpin : pin.IsClosed := hclosed
    have hdirection : Direction.ofText? keyword.text = some .input :=
      ofText?_eq_some_iff.2 hkeyword
    rw [Statement.ofTokens, hdirection]
    simp only [afterKeyword_input hpin]
    rfl
  | @output keyword pin expression hkeyword hne =>
    have hpin : pin.IsClosed := hclosed
    have hdirection : Direction.ofText? keyword.text = some .output :=
      ofText?_eq_some_iff.2 hkeyword
    rw [Statement.ofTokens, hdirection]
    simp only [afterKeyword_output hpin hne]
    rfl

theorem eq_nil_of_ofTokens {tokens : List Token} (h : Statement.ofTokens tokens = .ok none) :
    tokens = [] := by
  unfold Statement.ofTokens at h
  split at h
  · rfl
  · split at h
    · cases h
    · obtain ⟨_, _, ⟨⟩⟩ := map_eq_ok_iff.1 h

/-- A line without a statement is blank or a comment. -/
theorem ofLine_eq_ok_none_iff {line : List Char} :
    Statement.ofLine line = .ok none ↔ IsIdle line := by
  by_cases hcomment : ∃ comment, trimmed line = '#' :: comment
  · obtain ⟨comment, hcomment⟩ := hcomment
    exact ⟨fun _ => .inr ⟨comment, hcomment⟩, fun _ => ofLine_comment hcomment⟩
  · rw [not_exists] at hcomment
    rw [ofLine_of_not_comment hcomment]
    constructor
    · intro h
      rcases trimmed_cases line with ⟨-, hnil⟩ | ⟨c, cs, hc, -, htrimmed⟩
      · exact .inl hnil
      · split at h
        · cases h
        · next tokens hscan =>
          rw [eq_nil_of_ofTokens h, htrimmed] at hscan
          exact absurd hscan (scan_ne_nil hc _)
    · rintro (hnil | ⟨comment, h⟩)
      · rw [hnil, Token.scan_nil]
        rfl
      · exact absurd h (hcomment comment)

/-- A line with a statement consists of the tokens of the statement. -/
theorem exists_declares_of_ofLine {line : List Char} {statement : Statement}
    (h : Statement.ofLine line = .ok (some statement)) :
    ∃ tokens, Token.scan (trimmed line) = .ok tokens ∧ Declares tokens statement := by
  have hcomment : ∀ comment, trimmed line ≠ '#' :: comment := by
    intro comment hcomment
    rw [ofLine_comment hcomment] at h
    cases h
  rw [ofLine_of_not_comment hcomment] at h
  split at h
  · cases h
  · next tokens hscan => exact ⟨tokens, hscan, declares_of_ofTokens h⟩

/-- A line that consists of the tokens of a statement is read as the statement. -/
theorem ofLine_of_declares {line : List Char} {tokens : List Token} {statement : Statement}
    (hscan : Token.scan (trimmed line) = .ok tokens) (h : Declares tokens statement)
    (hclosed : statement.declaration.IsClosed) :
    Statement.ofLine line = .ok (some statement) := by
  have hcomment : ∀ comment, trimmed line ≠ '#' :: comment := by
    intro comment hcomment
    have hblank : isBlank '#' = false := by decide
    have hmark : Token.ofMark? '#' = none := by decide
    have hword : Token.isWordCharacter '#' = false := by decide
    rw [hcomment, Token.scan, if_neg (by simp [hblank]), hmark] at hscan
    simp [hword] at hscan
  rw [ofLine_of_not_comment hcomment, hscan]
  exact ofTokens_of_declares h hclosed

/-! ## Reading the lines of a text -/

theorem holds_of_isSome {ls : List (List Char)}
    (h : ∀ line ∈ ls, (Statement.ofLine line).toOption.isSome = true) :
    Holds ls (ls.filterMap fun line => (Statement.ofLine line).toOption.join) := by
  induction ls with
  | nil => exact .nil
  | cons line rest ih =>
    rw [List.forall_mem_cons] at h
    obtain ⟨statement?, hstatement⟩ := Option.isSome_iff_exists.1 h.1
    have hline := toOption_eq_some_iff.1 hstatement
    cases statement? with
    | none =>
      rw [List.filterMap_cons_none (by rw [hstatement]; rfl)]
      exact .idle (ofLine_eq_ok_none_iff.1 hline) (ih h.2)
    | some statement =>
      rw [List.filterMap_cons_some (by rw [hstatement]; rfl)]
      obtain ⟨tokens, hscan, hdeclares⟩ := exists_declares_of_ofLine hline
      exact .statement hscan hdeclares (ih h.2)

/-- The statements that lines hold are read from them. -/
theorem Holds.ofLine {ls : List (List Char)} {found : List Statement} (h : Holds ls found)
    (hclosed : ∀ statement ∈ found, statement.declaration.IsClosed) :
    (∀ line ∈ ls, (Statement.ofLine line).toOption.isSome = true) ∧
      ls.filterMap (fun line => (Statement.ofLine line).toOption.join) = found := by
  induction h with
  | nil => exact ⟨nofun, rfl⟩
  | @idle line rest found hline hrest ih =>
    obtain ⟨hisSome, hfound⟩ := ih hclosed
    have hnone := toOption_eq_some_iff.2 (ofLine_eq_ok_none_iff.2 hline)
    refine ⟨List.forall_mem_cons.2 ⟨by rw [hnone]; rfl, hisSome⟩, ?_⟩
    rw [List.filterMap_cons_none (by rw [hnone]; rfl), hfound]
  | @statement line rest found tokens statement hscan hdeclares hrest ih =>
    rw [List.forall_mem_cons] at hclosed
    obtain ⟨hisSome, hfound⟩ := ih hclosed.2
    have hsome := toOption_eq_some_iff.2 (ofLine_of_declares hscan hdeclares hclosed.1)
    refine ⟨List.forall_mem_cons.2 ⟨by rw [hsome]; rfl, hisSome⟩, ?_⟩
    rw [List.filterMap_cons_some (by rw [hsome]; rfl), hfound]

theorem declared?_encode (line : List Char) :
    declared? (encode (String.ofList line)) = (Statement.ofLine line).toOption := by
  rw [declared?, decode?_encode, Option.bind_some, String.toList_ofList]

/-- A text is read if its lines can be read and their statements make the pins of a circuit. -/
theorem read_encode_eq_ok_iff {text : String} {d : Circuit} :
    read (encode text) = .ok d ↔
      (∀ line ∈ text.toList.splitOn '\n', (Statement.ofLine line).toOption.isSome = true) ∧
        List.Forall₂ MakesInput
          (((text.toList.splitOn '\n').filterMap fun line =>
            (Statement.ofLine line).toOption.join).filterMap Statement.input?) d.inputs ∧
        List.Forall₂ (MakesOutput d.inputPositions)
          (((text.toList.splitOn '\n').filterMap fun line =>
            (Statement.ofLine line).toOption.join).filterMap Statement.output?) d.outputs := by
  rw [read_eq_ok_iff, lines_encode, List.forall_mem_map, List.filterMap_map, List.filterMap_map,
    List.filterMap_filterMap, List.filterMap_filterMap]
  simp only [declared?_encode, lineInput?, lineOutput?, Function.comp_def]

/-! ## Making the pins -/

/-- A type is read if it has a code, as the type of the code. -/
theorem pinType_eq_ok_iff {type : Option Token} {found : PinType} :
    pinType type = .ok found ↔ ∃ code, HasCode type code ∧ found = .ofCode code := by
  cases type with
  | none =>
    constructor
    · rintro ⟨⟩
      exact ⟨0, .absent, rfl⟩
    · rintro ⟨code, ⟨⟩, rfl⟩
      rfl
  | some type =>
    rw [pinType]
    by_cases hpower : capitals type.text = "POWER"
    · rw [if_pos hpower]
      constructor
      · rintro ⟨⟩
        exact ⟨0, .power hpower, rfl⟩
      · rintro ⟨code, hcode, rfl⟩
        cases hcode with
        | power => rfl
        | decimal _ hdigits _ => exact absurd hpower (capitals_ne_power hdigits)
    · rw [if_neg hpower]
      constructor
      · intro h
        split at h
        · cases h
        · next value hvalue =>
          obtain ⟨hne, hdigits, hvalue⟩ := ofDecimal?_eq_some_iff.1 hvalue
          split at h
          · next hlt =>
            cases h
            refine ⟨UInt8.ofNat value, .decimal hne hdigits ?_, rfl⟩
            rw [hvalue, UInt8.toNat_ofNat_of_lt' hlt]
          · cases h
      · rintro ⟨code, hcode, rfl⟩
        cases hcode with
        | power hname => exact absurd hname hpower
        | decimal hne hdigits hvalue =>
          have hread : ofDecimal? type.text.toList = some code.toNat :=
            ofDecimal?_eq_some_iff.2 ⟨hne, hdigits, hvalue⟩
          simp only [hread, if_pos code.toNat_lt, UInt8.ofNat_toNat]

/-- A declaration makes the input that it describes. -/
theorem makesInput_iff {declaration : Declaration} {pin : InputPin} :
    MakesInput declaration pin ↔ DescribesInput declaration pin := by
  constructor
  · rintro ⟨hposition, htype⟩
    obtain ⟨code, hcode, htype⟩ := pinType_eq_ok_iff.1 htype
    have htakes := pin.takes
    rw [htype, Position.takes_ofCode_iff] at htakes
    exact ⟨code, ⟨hposition, hcode, htakes⟩, htype⟩
  · rintro ⟨code, hdescribes, htype⟩
    exact ⟨hdescribes.text_eq, pinType_eq_ok_iff.2 ⟨code, hdescribes.hasCode, htype⟩⟩

/-- A declaration makes the output that it describes, with the formula of its expression. -/
theorem makesOutput_iff {inputs : List Position} {declared : Declaration × List Token}
    {pin : OutputPin} :
    MakesOutput inputs declared pin ↔ DescribesOutput inputs.idxOf? declared pin := by
  constructor
  · rintro ⟨hposition, htype, f, hparse, hformula⟩
    obtain ⟨code, hcode, htype⟩ := pinType_eq_ok_iff.1 htype
    have htakes := pin.takes
    rw [htype, Position.takes_ofCode_iff] at htakes
    exact ⟨code, f, ⟨hposition, hcode, htakes⟩, htype, parseExpression_eq_ok_iff.1 hparse, hformula⟩
  · rintro ⟨code, f, hdescribes, htype, hderives, hformula⟩
    exact ⟨hdescribes.text_eq, pinType_eq_ok_iff.2 ⟨code, hdescribes.hasCode, htype⟩, f,
      parseExpression_eq_ok_iff.2 hderives, hformula⟩

/-- No bracket stands inside the brackets of a declaration that describes a pin. -/
theorem Declaration.Describes.isClosed {declaration : Declaration} {p : Position} {code : UInt8}
    (h : declaration.Describes p code) : declaration.IsClosed := by
  obtain ⟨hposition, hcode, -⟩ := h
  have hbracket : Token.rightParen ≠ declaration.position := by
    intro heq
    have hword := isWord_token p
    rw [← hposition, ← heq] at hword
    exact absurd hword (by decide)
  obtain ⟨position, type⟩ := declaration
  rw [Declaration.IsClosed, Declaration.tokens]
  cases hcode with
  | absent => simpa using hbracket
  | @power type htype =>
    have htype : Token.rightParen ≠ type := by
      rintro rfl
      exact absurd htype (by decide)
    simpa using ⟨hbracket, htype⟩
  | @decimal type code hne hdigits hvalue =>
    have htype : Token.rightParen ≠ type := by
      rintro rfl
      exact absurd (hdigits ')' (by decide)) (by decide)
    simpa using ⟨hbracket, htype⟩

/-! ## The circuit of a text -/

theorem idxOf?_map_token (ps : List Position) (p : Position) :
    (ps.map Position.token).idxOf? p.token = ps.idxOf? p := by
  have htoken (q : Position) : (q.token == p.token) = (q == p) := by
    rw [Bool.eq_iff_iff, beq_iff_eq, beq_iff_eq]
    exact ⟨Position.token_injective, fun h => h ▸ rfl⟩
  rw [List.idxOf?, List.findIdx?_map, List.idxOf?]
  simp only [Function.comp_def, htoken]

theorem nodup_map_token_iff {ps : List Position} : (ps.map Position.token).Nodup ↔ ps.Nodup :=
  List.nodup_map_iff fun _ _ => Position.token_injective

variable {found : List Statement} {d : Circuit}

/-- Inputs are declared by the tokens of their positions. -/
theorem inputTexts_eq {pins : List InputPin}
    (h : List.Forall₂ DescribesInput (found.filterMap Statement.input?) pins) :
    inputTexts found = (pins.map InputPin.position).map Position.token := by
  rw [inputTexts, List.map_map, ← List.forall₂_eq_eq_eq, List.forall₂_map_left_iff,
    List.forall₂_map_right_iff]
  exact h.imp fun _ _ ⟨_, hdescribes, _⟩ => hdescribes.text_eq

/-- Outputs are declared by the tokens of their positions. -/
theorem outputTexts_eq {place? : Position → Option Nat} {pins : List OutputPin}
    (h : List.Forall₂ (DescribesOutput place?) (found.filterMap Statement.output?) pins) :
    outputTexts found = (pins.map OutputPin.position).map Position.token := by
  rw [outputTexts, List.map_map, ← List.forall₂_eq_eq_eq, List.forall₂_map_left_iff,
    List.forall₂_map_right_iff]
  exact h.imp fun _ _ ⟨_, _, hdescribes, _⟩ => hdescribes.text_eq

theorem declaredPlace?_eq {ps : List Position} (h : inputTexts found = ps.map Position.token) :
    declaredPlace? found = ps.idxOf? := by
  funext p
  rw [declaredPlace?, h, idxOf?_map_token]

namespace IsDeclaredBy

/-- Every statement describes the pin that it declares. -/
theorem described (h : IsDeclaredBy d found) :
    ∀ statement ∈ found, ∃ position code, statement.declaration.Describes position code := by
  intro statement hmem
  cases statement with
  | input pin =>
    have hpin : pin ∈ found.filterMap Statement.input? := List.mem_filterMap.2 ⟨_, hmem, rfl⟩
    obtain ⟨made, -, code, hdescribes, -⟩ := exists_of_mem_right h.inputs.flip hpin
    exact ⟨made.position, code, hdescribes⟩
  | output pin expression =>
    have hpin : (pin, expression) ∈ found.filterMap Statement.output? :=
      List.mem_filterMap.2 ⟨_, hmem, rfl⟩
    obtain ⟨made, -, code, f, hdescribes, -⟩ := exists_of_mem_right h.outputs.flip hpin
    exact ⟨made.position, code, hdescribes⟩

/-- The statements of a circuit are well formed. -/
theorem isWellFormed (h : IsDeclaredBy d found) : IsWellFormed found where
  described := h.described
  inputs_nodup := by
    rw [inputTexts_eq h.inputs, nodup_map_token_iff]
    exact d.inputs_nodup
  outputs_nodup := by
    rw [outputTexts_eq h.outputs, nodup_map_token_iff]
    exact d.outputs_nodup
  expressions := by
    intro declared hmem
    obtain ⟨made, -, code, f, -, -, hderives, -⟩ := exists_of_mem_right h.outputs.flip hmem
    exact ⟨f, hderives⟩

end IsDeclaredBy

theorem exists_forall₂ {α β : Type} {R : α → β → Prop} {xs : List α} (h : ∀ x ∈ xs, ∃ y, R x y) :
    ∃ ys, List.Forall₂ R xs ys := by
  induction xs with
  | nil => exact ⟨[], .nil⟩
  | cons x xs ih =>
    rw [List.forall_mem_cons] at h
    obtain ⟨y, hy⟩ := h.1
    obtain ⟨ys, hys⟩ := ih h.2
    exact ⟨y :: ys, .cons hy hys⟩

/-- Statements that are well formed declare a circuit. -/
theorem IsWellFormed.exists_isDeclaredBy (h : IsWellFormed found) : ∃ d, IsDeclaredBy d found := by
  obtain ⟨inputs, hinputs⟩ :
      ∃ pins, List.Forall₂ DescribesInput (found.filterMap Statement.input?) pins := by
    refine exists_forall₂ fun declaration hmem => ?_
    obtain ⟨statement, hstatement, hinput⟩ := List.mem_filterMap.1 hmem
    cases statement with
    | input pin =>
      obtain rfl : pin = declaration := Option.some.inj hinput
      obtain ⟨p, code, hdescribes⟩ := h.described _ hstatement
      exact ⟨⟨p, .ofCode code, Position.takes_ofCode_iff.2 hdescribes.eq_zero⟩, code, hdescribes,
        rfl⟩
    | output => cases hinput
  obtain ⟨outputs, houtputs⟩ : ∃ pins, List.Forall₂ (DescribesOutput (declaredPlace? found))
      (found.filterMap Statement.output?) pins := by
    refine exists_forall₂ fun declared hmem => ?_
    obtain ⟨f, hderives⟩ := h.expressions declared hmem
    obtain ⟨statement, hstatement, houtput⟩ := List.mem_filterMap.1 hmem
    cases statement with
    | input => cases houtput
    | output pin expression =>
      obtain rfl : (pin, expression) = declared := Option.some.inj houtput
      obtain ⟨p, code, hdescribes⟩ := h.described _ hstatement
      exact ⟨⟨p, .ofCode code, .formula f, Position.takes_ofCode_iff.2 hdescribes.eq_zero⟩, code, f,
        hdescribes, rfl, hderives, rfl⟩
  have hin := h.inputs_nodup
  have hout := h.outputs_nodup
  rw [inputTexts_eq hinputs, nodup_map_token_iff] at hin
  rw [outputTexts_eq houtputs, nodup_map_token_iff] at hout
  exact ⟨⟨inputs, outputs, hin, hout⟩, hinputs, houtputs⟩

/-- A text describes the circuit that the statements of its lines declare. -/
theorem read_encode_iff_isDeclaredBy {text : String} :
    read (encode text) = .ok d ↔
      ∃ found, Holds (text.toList.splitOn '\n') found ∧ IsDeclaredBy d found := by
  rw [read_encode_eq_ok_iff]
  constructor
  · rintro ⟨hlines, hinputs, houtputs⟩
    have hinputs := hinputs.imp fun _ _ => makesInput_iff.1
    refine ⟨_, holds_of_isSome hlines, hinputs, ?_⟩
    rw [declaredPlace?_eq (inputTexts_eq hinputs)]
    exact houtputs.imp fun _ _ => makesOutput_iff.1
  · rintro ⟨found, hholds, hdeclared⟩
    have hclosed : ∀ statement ∈ found, statement.declaration.IsClosed := by
      intro statement hmem
      obtain ⟨p, code, hdescribes⟩ := hdeclared.described statement hmem
      exact hdescribes.isClosed
    obtain ⟨hlines, hfound⟩ := hholds.ofLine hclosed
    have houtputs := hdeclared.outputs
    rw [declaredPlace?_eq (inputTexts_eq hdeclared.inputs)] at houtputs
    rw [hfound]
    exact ⟨hlines, hdeclared.inputs.imp fun _ _ => makesInput_iff.2,
      houtputs.imp fun _ _ => makesOutput_iff.2⟩

/-- **The format of pin files.**  A text is accepted if and only if its lines hold statements that
are well formed, and it describes the circuit whose pins are declared by these statements. -/
theorem read_encode_format (text : String) :
    ((∃ d, read (encode text) = .ok d) ↔
      ∃ found, Holds (text.toList.splitOn '\n') found ∧ IsWellFormed found) ∧
    ∀ d, read (encode text) = .ok d ↔
      ∃ found, Holds (text.toList.splitOn '\n') found ∧ IsWellFormed found ∧
        IsDeclaredBy d found := by
  refine ⟨⟨?_, ?_⟩, fun d => ⟨?_, ?_⟩⟩
  · rintro ⟨d, hd⟩
    obtain ⟨found, hholds, hdeclared⟩ := read_encode_iff_isDeclaredBy.1 hd
    exact ⟨found, hholds, hdeclared.isWellFormed⟩
  · rintro ⟨found, hholds, hwell⟩
    obtain ⟨d, hdeclared⟩ := hwell.exists_isDeclaredBy
    exact ⟨d, read_encode_iff_isDeclaredBy.2 ⟨found, hholds, hdeclared⟩⟩
  · intro hd
    obtain ⟨found, hholds, hdeclared⟩ := read_encode_iff_isDeclaredBy.1 hd
    exact ⟨found, hholds, hdeclared.isWellFormed, hdeclared⟩
  · rintro ⟨found, hholds, -, hdeclared⟩
    exact read_encode_iff_isDeclaredBy.2 ⟨found, hholds, hdeclared⟩

end VoxelLogic.PinFile
