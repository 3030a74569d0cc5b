import VoxelLogic.Proofs.Circuit.Repeats
import VoxelLogic.Proofs.PinFile.Refusal

/-!
# Which error is reported

A pin file is read in two rounds, so the error that is reported is not the first in the file.  A
line that is refused for what stands on it is reported whatever else is wrong, and what follows it
is never looked at.  Only where no line is refused are the declarations looked at, those of all
inputs before those of all outputs, and within a declaration first the type, then the expression,
then the position.

* `Declaration.Misdescribes`: what is wrong with a declaration.
* `RefusesExpression`: tokens that derive no formula.
* `InputFault`, `OutputFault`: statements that make no pin.
* `Reports`: the error of a file, found in the order of both rounds.
* `circuit_eq_error_iff`: the second round.
* `read_reports`: the error of a file, and what it does not depend on.
-/

namespace VoxelLogic

open Text

/-! ## Making pins -/

theorem InputPin.make_eq_error_iff {p : Position} {type : PinType} {e : Error} :
    InputPin.make p type = .error e ↔ p.takes type ≠ true ∧ e = .stateType p type := by
  rw [InputPin.make]
  split
  · next takes => simp [takes]
  · next hnot => simp [hnot, eq_comm]

theorem OutputPin.make_eq_error_iff {p : Position} {type : PinType} {behaviour : Behaviour}
    {e : Error} :
    OutputPin.make p type behaviour = .error e ↔ p.takes type ≠ true ∧ e = .stateType p type := by
  rw [OutputPin.make]
  split
  · next takes => simp [takes]
  · next hnot => simp [hnot, eq_comm]

theorem Position.read_eq_error_iff {token : String} {e : Error} :
    Position.read token = .error e ↔
      (∀ p : Position, token ≠ p.token) ∧ e = .unknownPosition token := by
  have hread (p : Position) : token ≠ p.token ↔ Position.read token ≠ .ok p :=
    not_congr Position.read_eq_ok_iff.symm
  simp only [hread]
  rw [Position.read]
  cases Position.ofToken? token with
  | none => simp [eq_comm]
  | some p => simp

namespace PinFile

/-! ## Declarations -/

/-- What is wrong with a declaration on a line.  `Between` says what is wrong with that which is
looked at between the type and the position. -/
inductive Declaration.Misdescribes (declaration : Declaration) (line : Nat)
    (Between : Error → Prop) : Error → Prop where
  /-- The type has no code. -/
  | type {type : Token} (htype : declaration.type = some type)
      (hcode : ∀ code, ¬ HasCode (some type) code) :
    declaration.Misdescribes line Between (.line line (.unknownType type))
  /-- The type has a code, but what is looked at next is wrong. -/
  | between {code : UInt8} {e : Error} (hcode : HasCode declaration.type code) (h : Between e) :
    declaration.Misdescribes line Between e
  /-- That is right as well, but the position is none. -/
  | position {code : UInt8} (hcode : HasCode declaration.type code) (hbetween : ∀ e, ¬ Between e)
      (hposition : ∀ p : Position, declaration.position.text ≠ p.token) :
    declaration.Misdescribes line Between (.unknownPosition declaration.position.text)
  /-- The position is one that carries state, and the code is not that of power. -/
  | state {code : UInt8} {p : Position} (hcode : HasCode declaration.type code)
      (hbetween : ∀ e, ¬ Between e) (hposition : declaration.position.text = p.token)
      (hstate : p.isState = true) (hne : code ≠ 0) :
    declaration.Misdescribes line Between (.stateType p (.ofCode code))

/-- Tokens that derive no formula, and what the parser says of them. -/
structure RefusesExpression (line : Nat) (place? : Position → Option Nat) (tokens : List Token)
    (e : Error) : Prop where
  not_derives : ∀ f, ¬ Derives place? tokens f
  reported : ∃ fault, parseExpression place? tokens = .error fault ∧
    e = .line line (.expression fault)

/-- What is wrong with the declaration of an input. -/
def InputFault (numbered : NumberedStatement) (e : Error) : Prop :=
  ∃ pin, numbered.statement = .input pin ∧ pin.Misdescribes numbered.line (fun _ => False) e

/-- What is wrong with the declaration of an output or with its expression. -/
def OutputFault (place? : Position → Option Nat) (numbered : NumberedStatement) (e : Error) :
    Prop :=
  ∃ pin tokens, numbered.statement = .output pin tokens ∧
    pin.Misdescribes numbered.line (RefusesExpression numbered.line place? tokens) e

/-- The declarations of inputs, in the order of their lines. -/
def inputsOf (found : List NumberedStatement) : List Declaration :=
  (found.map NumberedStatement.statement).filterMap Statement.input?

/-- The declarations of outputs with their expressions, in the order of their lines. -/
def outputsOf (found : List NumberedStatement) : List (Declaration × List Token) :=
  (found.map NumberedStatement.statement).filterMap Statement.output?

/-! ## Files -/

/-- The lines of a file with their numbers.  Every line counts, blank or not. -/
def numberedLines (content : List UInt8) : List (List UInt8 × Nat) := (lines content).zipIdx 1

/-- A line that is refused, under its number. -/
def LineFault.Refuses (numbered : List UInt8 × Nat) (e : Error) : Prop :=
  RefusesLine numbered.2 numbered.1 e

/-- What is reported of the statements of a file, none of whose lines is refused. -/
inductive ReportsStatements (found : List NumberedStatement) : Error → Prop where
  /-- The first input that is wrong. -/
  | input {i : Nat} {e : Error} (h : IsFirstFault InputFault found i e) :
    ReportsStatements found e
  /-- The first position that two inputs have, if no input is wrong. -/
  | repeatedInput {inputs : List InputPin} {i : Nat} {p : Position}
      (hinputs : List.Forall₂ DescribesInput (inputsOf found) inputs)
      (h : IsFirstRepeat (inputs.map InputPin.position) i p) :
    ReportsStatements found (.repeatedPosition p i)
  /-- The first output that is wrong, if nothing is wrong with the inputs. -/
  | output {inputs : List InputPin} {i : Nat} {e : Error}
      (hinputs : List.Forall₂ DescribesInput (inputsOf found) inputs)
      (hnodup : (inputs.map InputPin.position).Nodup)
      (h : IsFirstFault (OutputFault (inputs.map InputPin.position).idxOf?) found i e) :
    ReportsStatements found e
  /-- The first position that two outputs have, if nothing else is wrong. -/
  | repeatedOutput {inputs : List InputPin} {outputs : List OutputPin} {i : Nat} {p : Position}
      (hinputs : List.Forall₂ DescribesInput (inputsOf found) inputs)
      (hnodup : (inputs.map InputPin.position).Nodup)
      (houtputs : List.Forall₂ (DescribesOutput (inputs.map InputPin.position).idxOf?)
        (outputsOf found) outputs)
      (h : IsFirstRepeat (outputs.map OutputPin.position) i p) :
    ReportsStatements found (.repeatedPosition p i)

/-- What is reported of a file. -/
inductive Reports (content : List UInt8) : Error → Prop where
  /-- The first line that is refused. -/
  | line {i : Nat} {e : Error} (h : IsFirstFault LineFault.Refuses (numberedLines content) i e) :
    Reports content e
  /-- What is wrong with the statements of the lines, if none is refused. -/
  | statements {found : List NumberedStatement} {e : Error}
      (hfound : HoldsNumbered (numberedLines content) found) (h : ReportsStatements found e) :
    Reports content e

/-! ## Declarations that make no pin -/

section Declaration

variable {line : Nat} {declaration : Declaration} {e : Error}

theorem eq_of_pinType_eq_error {token : Token} {fault : LineFault}
    (h : pinType (some token) = .error fault) : fault = .unknownType token := by
  rw [pinType] at h
  split at h
  · cases h
  · split at h
    · cases h
      rfl
    · split at h <;> cases h
      rfl

theorem pinType_eq_error_iff {type : Option Token} {fault : LineFault} :
    pinType type = .error fault ↔
      ∃ token, type = some token ∧ (∀ code, ¬ HasCode (some token) code) ∧
        fault = .unknownType token := by
  cases type with
  | none => exact ⟨nofun, fun ⟨_, h, _⟩ => nomatch h⟩
  | some token =>
    have hcode : (∀ code, ¬ HasCode (some token) code) ↔
        ∀ found, pinType (some token) ≠ .ok found := by
      constructor
      · intro h found hfound
        obtain ⟨code, hcode, -⟩ := pinType_eq_ok_iff.1 hfound
        exact h code hcode
      · exact fun h code hcode => h _ (pinType_eq_ok_iff.2 ⟨code, hcode, rfl⟩)
    simp only [Option.some.injEq, exists_eq_left', hcode]
    cases hresult : pinType (some token) with
    | ok found => simp
    | error found =>
      obtain rfl := eq_of_pinType_eq_error hresult
      simp [eq_comm]

/-- A position that takes no pin of a code carries state, and the code is not that of power. -/
theorem takes_ofCode_ne_true_iff {p : Position} {code : UInt8} :
    p.takes (.ofCode code) ≠ true ↔ p.isState = true ∧ code ≠ 0 := by
  rw [Ne, Position.takes_ofCode_iff, Classical.not_imp]

/-- Making a pin from its type, something else and its position, in this order, fails as the
declaration is wrong. -/
theorem makePin_eq_error_iff {α β : Type} {between : Except Error α}
    {make : Position → PinType → α → Except Error β} {Between : Error → Prop}
    (hbetween : ∀ e, between = .error e ↔ Between e)
    (hmake : ∀ p type x e, make p type x = .error e ↔ p.takes type ≠ true ∧ e = .stateType p type) :
    ((atLine line (pinType declaration.type)).bind fun type =>
        between.bind fun x =>
          (Position.read declaration.position.text).bind fun p => make p type x) = .error e ↔
      declaration.Misdescribes line Between e := by
  simp only [bind_eq_error_iff, atLine_eq_error_iff, atLine_eq_ok_iff, pinType_eq_ok_iff,
    pinType_eq_error_iff, Position.read_eq_error_iff, Position.read_eq_ok_iff, hbetween, hmake]
  constructor
  · rintro (⟨_, ⟨type, htype, hcode, rfl⟩, rfl⟩ | ⟨_, ⟨code, hcode, rfl⟩, h⟩)
    · exact .type htype hcode
    · rcases h with h | ⟨x, hx, h⟩
      · exact .between hcode h
      · have hnot : ∀ e, ¬ Between e := fun e he => by simp [(hbetween e).2 he] at hx
        rcases h with ⟨hposition, rfl⟩ | ⟨p, hposition, htakes, rfl⟩
        · exact .position hcode hnot hposition
        · obtain ⟨hstate, hne⟩ := takes_ofCode_ne_true_iff.1 htakes
          exact .state hcode hnot hposition hstate hne
  · have hok (hnot : ∀ e, ¬ Between e) : ∃ x, between = .ok x :=
      exists_eq_ok_iff.2 fun e he => hnot e ((hbetween e).1 he)
    rintro (⟨htype, hcode⟩ | ⟨hcode, h⟩ | ⟨hcode, hnot, hposition⟩ |
      ⟨hcode, hnot, hposition, hstate, hne⟩)
    · exact .inl ⟨_, ⟨_, htype, hcode, rfl⟩, rfl⟩
    · exact .inr ⟨_, ⟨_, hcode, rfl⟩, .inl h⟩
    · obtain ⟨x, hx⟩ := hok hnot
      exact .inr ⟨_, ⟨_, hcode, rfl⟩, .inr ⟨x, hx, .inl ⟨hposition, rfl⟩⟩⟩
    · obtain ⟨x, hx⟩ := hok hnot
      exact .inr ⟨_, ⟨_, hcode, rfl⟩, .inr ⟨x, hx, .inr ⟨_, hposition,
        takes_ofCode_ne_true_iff.2 ⟨hstate, hne⟩, rfl⟩⟩⟩

theorem inputPin_eq_error_iff :
    inputPin line declaration = .error e ↔ declaration.Misdescribes line (fun _ => False) e := by
  have hbetween (e : Error) : (Except.ok () : Except Error Unit) = .error e ↔ False :=
    iff_of_false nofun id
  have hmake (p : Position) (type : PinType) (_ : Unit) (e : Error) :
      InputPin.make p type = .error e ↔ p.takes type ≠ true ∧ e = .stateType p type :=
    InputPin.make_eq_error_iff
  exact makePin_eq_error_iff hbetween hmake

/-- An expression is refused if its tokens derive no formula. -/
theorem behaviour_eq_error_iff {inputs : List Position} {tokens : List Token} :
    atLine line (behaviour inputs tokens) = .error e ↔
      RefusesExpression line inputs.idxOf? tokens e := by
  rw [atLine_eq_error_iff]
  cases hparse : parseExpression inputs.idxOf? tokens with
  | error fault =>
    rw [behaviour_of_parseExpression_eq_error hparse]
    constructor
    · rintro ⟨_, ⟨⟩, rfl⟩
      refine ⟨fun f hderives => ?_, fault, hparse, rfl⟩
      rw [parseExpression_eq_ok_iff.2 hderives] at hparse
      cases hparse
    · rintro ⟨-, fault', hfault, rfl⟩
      obtain rfl := Except.error.inj (hparse.symm.trans hfault)
      exact ⟨_, rfl, rfl⟩
  | ok f =>
    rw [behaviour_of_parseExpression hparse]
    refine ⟨fun ⟨_, h, _⟩ => (nomatch h), fun ⟨_, fault, hfault, _⟩ => ?_⟩
    rw [hparse] at hfault
    cases hfault

theorem outputPin_eq_error_iff {inputs : List Position} {tokens : List Token} :
    outputPin inputs line declaration tokens = .error e ↔
      declaration.Misdescribes line (RefusesExpression line inputs.idxOf? tokens) e :=
  makePin_eq_error_iff (fun _ => behaviour_eq_error_iff) fun _ _ _ _ =>
    OutputPin.make_eq_error_iff

end Declaration

/-! ## Statements that make no pins -/

/-- Making a list fails with its first item or, if that can be made, with the others. -/
theorem cons_eq_error_iff {α : Type} {first : Except Error α} {rest : Except Error (List α)}
    {e : Error} :
    (first.bind fun x => rest.bind fun xs => pure (x :: xs)) = .error e ↔
      first = .error e ∨ (∀ e', first ≠ .error e') ∧ rest = .error e := by
  cases first with
  | error e₀ => simp [Except.bind]
  | ok x =>
    cases rest with
    | error e₀ => simp [Except.bind]
    | ok xs => simp [Except.bind, pure, Except.pure]

section Statements

variable {found : List NumberedStatement} {inputs : List Position} {e : Error}

/-- The first input that is wrong is reported. -/
theorem inputPins_eq_error_iff :
    inputPins found = .error e ↔ ∃ i, IsFirstFault InputFault found i e := by
  induction found with
  | nil => exact ⟨nofun, fun ⟨i, h⟩ => absurd h not_isFirstFault_nil⟩
  | cons numbered rest ih =>
    rw [exists_isFirstFault_cons_iff, ← ih]
    obtain ⟨line, declaration | ⟨declaration, tokens⟩⟩ := numbered
    · have hfault (e' : Error) : InputFault ⟨line, .input declaration⟩ e' ↔
          inputPin line declaration = .error e' := by
        rw [inputPin_eq_error_iff]
        constructor
        · rintro ⟨_, ⟨⟩, h⟩
          exact h
        · exact fun h => ⟨declaration, rfl, h⟩
      simp only [inputPins, do_eq_bind, hfault]
      exact cons_eq_error_iff
    · have hfault (e' : Error) : ¬ InputFault ⟨line, .output declaration tokens⟩ e' := by
        rintro ⟨_, h, -⟩
        cases h
      simp only [inputPins, hfault, false_or, not_false_eq_true, implies_true, true_and]

/-- The first output that is wrong is reported. -/
theorem outputPins_eq_error_iff :
    outputPins inputs found = .error e ↔
      ∃ i, IsFirstFault (OutputFault inputs.idxOf?) found i e := by
  induction found with
  | nil => exact ⟨nofun, fun ⟨i, h⟩ => absurd h not_isFirstFault_nil⟩
  | cons numbered rest ih =>
    rw [exists_isFirstFault_cons_iff, ← ih]
    obtain ⟨line, declaration | ⟨declaration, tokens⟩⟩ := numbered
    · have hfault (e' : Error) : ¬ OutputFault inputs.idxOf? ⟨line, .input declaration⟩ e' := by
        rintro ⟨_, _, h, -⟩
        cases h
      simp only [outputPins, hfault, false_or, not_false_eq_true, implies_true, true_and]
    · have hfault (e' : Error) :
          OutputFault inputs.idxOf? ⟨line, .output declaration tokens⟩ e' ↔
            outputPin inputs line declaration tokens = .error e' := by
        rw [outputPin_eq_error_iff]
        constructor
        · rintro ⟨_, _, ⟨⟩, h⟩
          exact h
        · exact fun h => ⟨declaration, tokens, rfl, h⟩
      simp only [outputPins, do_eq_bind, hfault]
      exact cons_eq_error_iff

theorem inputPins_eq_ok_iff_describes {pins : List InputPin} :
    inputPins found = .ok pins ↔ List.Forall₂ DescribesInput (inputsOf found) pins := by
  have hmakes : MakesInput = DescribesInput :=
    funext₂ fun _ _ => propext makesInput_iff
  rw [inputPins_eq_ok_iff, hmakes, inputsOf]

theorem outputPins_eq_ok_iff_describes {pins : List OutputPin} :
    outputPins inputs found = .ok pins ↔
      List.Forall₂ (DescribesOutput inputs.idxOf?) (outputsOf found) pins := by
  have hmakes : MakesOutput inputs = DescribesOutput inputs.idxOf? :=
    funext₂ fun _ _ => propext makesOutput_iff
  rw [outputPins_eq_ok_iff, hmakes, outputsOf]

/-- **The second round.**  Inputs are looked at before outputs, and repeated positions after the
declarations of their side. -/
theorem circuit_eq_error_iff : circuit found = .error e ↔ ReportsStatements found e := by
  have hset {pins : List InputPin} {c : Circuit} :
      Circuit.empty.withInputs pins = .ok c ↔ c.inputs = pins ∧ c.outputs = [] :=
    Circuit.withInputs_eq_ok_iff
  simp only [circuit, do_eq_bind, bind_eq_error_iff, inputPins_eq_error_iff,
    inputPins_eq_ok_iff_describes, outputPins_eq_error_iff, outputPins_eq_ok_iff_describes,
    (Circuit.replacesSide_withInputs _ _).error_iff,
    (Circuit.replacesSide_withOutputs _ _).error_iff, hset]
  constructor
  · rintro (⟨i, h⟩ | ⟨pins, hpins, ⟨i, p, h, rfl⟩ | ⟨c, ⟨rfl, -⟩, h⟩⟩)
    · exact .input h
    · exact .repeatedInput hpins h
    · rcases h with ⟨i, h⟩ | ⟨outputs, houtputs, i, p, h, rfl⟩
      · exact .output hpins c.inputs_nodup h
      · exact .repeatedOutput hpins c.inputs_nodup houtputs h
  · rintro (h | ⟨hpins, h⟩ | ⟨hpins, hnodup, h⟩ | ⟨hpins, hnodup, houtputs, h⟩)
    · exact .inl ⟨_, h⟩
    · exact .inr ⟨_, hpins, .inl ⟨_, _, h, rfl⟩⟩
    · exact .inr ⟨_, hpins, .inr ⟨⟨_, [], hnodup, List.nodup_nil⟩, ⟨rfl, rfl⟩, .inl ⟨_, h⟩⟩⟩
    · exact .inr ⟨_, hpins, .inr ⟨⟨_, [], hnodup, List.nodup_nil⟩, ⟨rfl, rfl⟩,
        .inr ⟨_, houtputs, _, _, h, rfl⟩⟩⟩

end Statements

/-! ## Files -/

section File

variable {content : List UInt8} {e : Error}

theorem statements_eq_error_iff :
    statements content = .error e ↔
      ∃ i, IsFirstFault LineFault.Refuses (numberedLines content) i e :=
  statementsFrom_eq_error_iff

theorem statements_eq_ok_iff {found : List NumberedStatement} :
    statements content = .ok found ↔ HoldsNumbered (numberedLines content) found :=
  statementsFrom_eq_ok_iff

theorem read_eq_error_iff : read content = .error e ↔ Reports content e := by
  rw [read, bind_eq_error_iff, statements_eq_error_iff]
  simp only [statements_eq_ok_iff, circuit_eq_error_iff]
  constructor
  · rintro (⟨i, h⟩ | ⟨found, hfound, h⟩)
    · exact .line h
    · exact .statements hfound h
  · rintro (h | ⟨hfound, h⟩)
    · exact .inl ⟨_, h⟩
    · exact .inr ⟨_, hfound, h⟩

/-- The lines of a file hold statements if none of them is refused. -/
theorem exists_holdsNumbered_iff :
    (∃ found, HoldsNumbered (numberedLines content) found) ↔
      ∀ i e, ¬ IsFirstFault LineFault.Refuses (numberedLines content) i e := by
  simp only [← statements_eq_ok_iff, exists_eq_ok_iff, Ne, statements_eq_error_iff, not_exists]
  exact forall_comm

theorem take_numberedLines (content : List UInt8) (k : Nat) :
    (numberedLines content).take k = ((lines content).take k).zipIdx 1 := by
  refine List.ext_getElem? fun i => ?_
  simp only [numberedLines, List.getElem?_zipIdx, List.getElem?_take]
  split <;> rfl

/-- What follows a line that is refused does not matter. -/
theorem read_eq_error_of_take_eq {i : Nat}
    (h : IsFirstFault LineFault.Refuses (numberedLines content) i e) {other : List UInt8}
    (hsame : (lines other).take (i + 1) = (lines content).take (i + 1)) :
    read other = .error e := by
  have hnumbered : (numberedLines other).take (i + 1) = (numberedLines content).take (i + 1) := by
    rw [take_numberedLines, hsame, take_numberedLines]
  exact read_eq_error_iff.2 (.line (h.of_take_eq hnumbered))

end File

/-- **Which error is reported.**  A file is refused for the first line that is refused for what
stands on it, under its number among all lines, and then it does not matter what follows the line.
If there is no such line, the lines hold statements, and the file is refused for the first input
that is wrong, or else for a position that two inputs have, or else for the first output that is
wrong, or else for a position that two outputs have; what is wrong with a type or an expression is
reported under the number of its line.  The one error that ends the program without a report is that
of an output in whose expression a look-up table has more than 65 arguments. -/
theorem read_reports (content : List UInt8) :
    (∀ e, read content = .error e ↔ Reports content e) ∧
    (∀ i e, IsFirstFault LineFault.Refuses (numberedLines content) i e → ∀ other : List UInt8,
      (lines other).take (i + 1) = (lines content).take (i + 1) → read other = .error e) ∧
    ((∃ found, HoldsNumbered (numberedLines content) found) ↔
      ∀ i e, ¬ IsFirstFault LineFault.Refuses (numberedLines content) i e) ∧
    ∀ e, read content = .error e → e.isAbrupt = true →
      ∃ found number pin tokens place? n, HoldsNumbered (numberedLines content) found ∧
        ⟨number, .output pin tokens⟩ ∈ found ∧ HasOversized place? n tokens ∧
        e = .line number (.expression (.maskTooLarge n)) := by
  refine ⟨fun e => read_eq_error_iff, fun i e h other => read_eq_error_of_take_eq h,
    exists_holdsNumbered_iff, fun e he habrupt => ?_⟩
  cases read_eq_error_iff.1 he with
  | line h =>
    obtain ⟨⟨line, number⟩, -, hrefuses⟩ := h.fault
    cases hrefuses with
    | unreadable => cases habrupt
    | unexpectedCharacter => cases habrupt
    | statement htext hcomment hscan hfault => cases hfault <;> cases habrupt
  | @statements found _ hfound h =>
    cases h with
    | input h =>
      obtain ⟨numbered, -, pin, -, hfault⟩ := h.fault
      cases hfault with
      | between _ h => exact h.elim
      | type => cases habrupt
      | position => cases habrupt
      | state => cases habrupt
    | repeatedInput => cases habrupt
    | output hinputs hnodup h =>
      obtain ⟨⟨number, statement⟩, hmem, pin, tokens, rfl, hfault⟩ := h.fault
      cases hfault with
      | between _ h =>
        obtain ⟨-, fault, hparse, rfl⟩ := h
        cases fault with
        | maskTooLarge n =>
          exact ⟨found, number, pin, tokens, _, n, hfound, List.mem_of_getElem? hmem,
            hasOversized_of_parseExpression hparse, rfl⟩
        | _ => cases habrupt
      | type => cases habrupt
      | position => cases habrupt
      | state => cases habrupt
    | repeatedOutput => cases habrupt

/-- A file of two lines, of which the second has a look-up table of 66 arguments and the mask
`0x0`. -/
def sixtySix : String :=
  "\nOUTPUT(T)=LUT 0x0(" ++ String.intercalate "," (List.replicate 66 "0") ++ ")"

/-- That the mask has the wrong size is never reported: the program ends for want of memory. -/
theorem read_sixtySix :
    read (encode sixtySix) = .error (.line 2 (.expression (.maskTooLarge 66))) ∧
      (Error.line 2 (.expression (.maskTooLarge 66))).isAbrupt = true := by
  have hread : (read (encode sixtySix)).map (fun _ => ()) =
      .error (.line 2 (.expression (.maskTooLarge 66))) := by
    decide +kernel
  exact ⟨map_eq_error_iff.1 hread, rfl⟩

end PinFile

end VoxelLogic
