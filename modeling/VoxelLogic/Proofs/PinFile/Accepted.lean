import VoxelLogic.Proofs.Formula.Total
import VoxelLogic.Proofs.PinFile.Parsed
import VoxelLogic.Proofs.PinFile.Statement

/-!
# Which files are accepted

A file is accepted if each of its lines declares something or nothing, and if the declarations of
inputs and of outputs make the pins of a circuit.

* `declared?`, `lineInput?`, `lineOutput?`: what a line declares.
* `MakesInput`, `MakesOutput`: the pin that a declaration makes.
* `read_eq_ok_iff`: the circuit of a file has the pins that its lines make, in their order.
* `MakesInput.unique`, `MakesOutput.unique`: a declaration makes one pin.
* `isTotal_of_read`: every output of the circuit of a file has values everywhere.
-/

namespace VoxelLogic

theorem Position.read_eq_ok_iff {token : String} {p : Position} :
    Position.read token = .ok p ↔ token = p.token := by
  rw [Position.read]
  constructor
  · intro h
    split at h
    · cases h
    · next found hfound =>
      cases h
      exact (Position.token_of_ofToken? hfound).symm
  · rintro rfl
    rw [Position.ofToken?_token]

namespace PinFile

open Text

/-! ## Declarations of a line -/

/-- The declaration of an input. -/
def Statement.input? : Statement → Option Declaration
  | .input pin => some pin
  | .output .. => none

/-- The declaration of an output, with the tokens of its expression. -/
def Statement.output? : Statement → Option (Declaration × List Token)
  | .input _ => none
  | .output pin tokens => some (pin, tokens)

/-- What a line declares, if it can be read: a statement, or nothing if it is blank or a comment. -/
def declared? (line : List UInt8) : Option (Option Statement) :=
  (decode? line).bind fun text => (Statement.ofLine text.toList).toOption

/-- The input that a line declares. -/
def lineInput? (line : List UInt8) : Option Declaration :=
  (declared? line).join.bind Statement.input?

/-- The output that a line declares. -/
def lineOutput? (line : List UInt8) : Option (Declaration × List Token) :=
  (declared? line).join.bind Statement.output?

theorem atLine_eq_ok_iff {α : Type} {line : Nat} {x : Except LineFault α} {value : α} :
    atLine line x = .ok value ↔ x = .ok value := by
  cases x <;> simp [atLine]

theorem lineStatement_eq_ok_iff {number : Nat} {line : List UInt8} {statement : Option Statement} :
    lineStatement number line = .ok statement ↔ declared? line = some statement := by
  unfold lineStatement declared?
  cases decode? line with
  | none => exact ⟨nofun, nofun⟩
  | some text => exact atLine_eq_ok_iff.trans toOption_eq_some_iff.symm

/-- The statements of lines, without their numbers. -/
theorem map_statementsFrom_eq_ok_iff {number : Nat} {ls : List (List UInt8)}
    {found : List Statement} :
    (statementsFrom number ls).map (List.map NumberedStatement.statement) = .ok found ↔
      (∀ line ∈ ls, (declared? line).isSome = true) ∧
        ls.filterMap (fun line => (declared? line).join) = found := by
  induction ls generalizing number found with
  | nil => simp [statementsFrom, Except.map]
  | cons line ls ih =>
    rw [statementsFrom, List.forall_mem_cons]
    cases hline : lineStatement number line with
    | error e =>
      have hnone : declared? line = none := by
        rw [Option.eq_none_iff_forall_ne_some]
        intro statement hdeclared
        rw [lineStatement_eq_ok_iff.2 hdeclared] at hline
        cases hline
      simp [hnone, Except.map]
    | ok statement =>
      rw [lineStatement_eq_ok_iff] at hline
      cases statement with
      | none => simp [hline, ih]
      | some statement =>
        have hmap : ((statementsFrom (number + 1) ls).map (⟨number, statement⟩ :: ·)).map
            (List.map NumberedStatement.statement) =
            ((statementsFrom (number + 1) ls).map (List.map NumberedStatement.statement)).map
              (statement :: ·) := by
          cases statementsFrom (number + 1) ls <;> rfl
        simp only [hmap, map_eq_ok_iff, ih, hline, Option.isSome_some, true_and,
          List.filterMap_cons, Option.join_some]
        constructor
        · rintro ⟨more, ⟨hdeclared, rfl⟩, rfl⟩
          exact ⟨hdeclared, rfl⟩
        · rintro ⟨hdeclared, rfl⟩
          exact ⟨_, ⟨hdeclared, rfl⟩, rfl⟩

/-! ## Pins of a declaration -/

/-- The input that a declaration makes. -/
structure MakesInput (declaration : Declaration) (pin : InputPin) : Prop where
  position : declaration.position.text = pin.position.token
  type : pinType declaration.type = .ok pin.type

/-- The output that a declaration and the tokens of its expression make over some inputs. -/
structure MakesOutput (inputs : List Position) (declared : Declaration × List Token)
    (pin : OutputPin) : Prop where
  position : declared.1.position.text = pin.position.token
  type : pinType declared.1.type = .ok pin.type
  formula : ∃ f, parseExpression inputs.idxOf? declared.2 = .ok f ∧
    pin.behaviour.formula? = some f

variable {inputs : List Position}

theorem inputPin_eq_ok_iff {line : Nat} {declaration : Declaration} {pin : InputPin} :
    inputPin line declaration = .ok pin ↔ MakesInput declaration pin := by
  simp only [inputPin, do_eq_bind, bind_eq_ok_iff, atLine_eq_ok_iff, Position.read_eq_ok_iff,
    InputPin.make_eq_ok_iff]
  constructor
  · rintro ⟨type, htype, position, hposition, rfl, rfl⟩
    exact ⟨hposition, htype⟩
  · rintro ⟨hposition, htype⟩
    exact ⟨pin.type, htype, pin.position, hposition, rfl, rfl⟩

theorem behaviour_eq_ok_iff {tokens : List Token} {found : Behaviour} :
    behaviour inputs tokens = .ok found ↔
      ∃ f, parseExpression inputs.idxOf? tokens = .ok f ∧ found.formula? = some f := by
  cases hparse : parseExpression inputs.idxOf? tokens with
  | error fault =>
    rw [behaviour_of_parseExpression_eq_error hparse]
    exact ⟨nofun, nofun⟩
  | ok f =>
    rw [behaviour_of_parseExpression hparse]
    constructor
    · intro h
      cases h
      exact ⟨f, rfl, rfl⟩
    · rintro ⟨g, hg, hfound⟩
      cases hg
      obtain rfl := Behaviour.eq_formula_of_formula? hfound
      rfl

theorem outputPin_eq_ok_iff {line : Nat} {declared : Declaration × List Token}
    {pin : OutputPin} :
    outputPin inputs line declared.1 declared.2 = .ok pin ↔ MakesOutput inputs declared pin := by
  simp only [outputPin, do_eq_bind, bind_eq_ok_iff, atLine_eq_ok_iff, Position.read_eq_ok_iff,
    OutputPin.make_eq_ok_iff, behaviour_eq_ok_iff]
  constructor
  · rintro ⟨type, htype, found, hfound, position, hposition, rfl, rfl, rfl⟩
    exact ⟨hposition, htype, hfound⟩
  · rintro ⟨hposition, htype, hformula⟩
    exact ⟨pin.type, htype, pin.behaviour, hformula, pin.position, hposition, rfl, rfl, rfl⟩

/-- A declaration makes one input. -/
theorem MakesInput.unique {declaration : Declaration} {pin other : InputPin}
    (h : MakesInput declaration pin) (hother : MakesInput declaration other) : pin = other := by
  have hpin : inputPin 0 declaration = .ok pin := inputPin_eq_ok_iff.2 h
  have hothers : inputPin 0 declaration = .ok other := inputPin_eq_ok_iff.2 hother
  exact Except.ok.inj (hpin.symm.trans hothers)

/-- A declaration makes one output. -/
theorem MakesOutput.unique {declared : Declaration × List Token} {pin other : OutputPin}
    (h : MakesOutput inputs declared pin) (hother : MakesOutput inputs declared other) :
    pin = other := by
  have hpin : outputPin inputs 0 declared.1 declared.2 = .ok pin := outputPin_eq_ok_iff.2 h
  have hothers : outputPin inputs 0 declared.1 declared.2 = .ok other :=
    outputPin_eq_ok_iff.2 hother
  exact Except.ok.inj (hpin.symm.trans hothers)

/-! ## Pins of statements -/

theorem inputPins_eq_ok_iff {found : List NumberedStatement} {pins : List InputPin} :
    inputPins found = .ok pins ↔
      List.Forall₂ MakesInput
        ((found.map NumberedStatement.statement).filterMap Statement.input?) pins := by
  induction found generalizing pins with
  | nil => simp [inputPins, eq_comm]
  | cons numbered rest ih =>
    obtain ⟨line, declaration | ⟨declaration, tokens⟩⟩ := numbered
    · simp only [inputPins, do_eq_bind, bind_eq_ok_iff, inputPin_eq_ok_iff, ih, List.map_cons,
        List.filterMap_cons, Statement.input?, List.forall₂_cons_left_iff]
      constructor
      · rintro ⟨first, hfirst, more, hmore, ⟨⟩⟩
        exact ⟨first, more, hfirst, hmore, rfl⟩
      · rintro ⟨first, more, hfirst, hmore, rfl⟩
        exact ⟨first, hfirst, more, hmore, rfl⟩
    · exact ih

theorem outputPins_eq_ok_iff {found : List NumberedStatement} {pins : List OutputPin} :
    outputPins inputs found = .ok pins ↔
      List.Forall₂ (MakesOutput inputs)
        ((found.map NumberedStatement.statement).filterMap Statement.output?) pins := by
  induction found generalizing pins with
  | nil => simp [outputPins, eq_comm]
  | cons numbered rest ih =>
    obtain ⟨line, declaration | ⟨declaration, tokens⟩⟩ := numbered
    · exact ih
    · have hfirst {pin : OutputPin} : outputPin inputs line declaration tokens = .ok pin ↔
          MakesOutput inputs (declaration, tokens) pin :=
        @outputPin_eq_ok_iff inputs line (declaration, tokens) pin
      simp only [outputPins, do_eq_bind, bind_eq_ok_iff, hfirst, ih, List.map_cons,
        List.filterMap_cons, Statement.output?, List.forall₂_cons_left_iff]
      constructor
      · rintro ⟨first, hfirst, more, hmore, ⟨⟩⟩
        exact ⟨first, more, hfirst, hmore, rfl⟩
      · rintro ⟨first, more, hfirst, hmore, rfl⟩
        exact ⟨first, hfirst, more, hmore, rfl⟩

theorem circuit_eq_ok_iff {found : List NumberedStatement} {d : Circuit} :
    circuit found = .ok d ↔
      List.Forall₂ MakesInput
          ((found.map NumberedStatement.statement).filterMap Statement.input?) d.inputs ∧
        List.Forall₂ (MakesOutput d.inputPositions)
          ((found.map NumberedStatement.statement).filterMap Statement.output?) d.outputs := by
  simp only [circuit, do_eq_bind, bind_eq_ok_iff, inputPins_eq_ok_iff, outputPins_eq_ok_iff,
    Circuit.withInputs_eq_ok_iff, Circuit.withOutputs_eq_ok_iff]
  constructor
  · rintro ⟨pins, hpins, c, ⟨rfl, -⟩, outputs, houtputs, rfl, hinputs⟩
    rw [Circuit.inputPositions, hinputs]
    exact ⟨hpins, houtputs⟩
  · rintro ⟨hinputs, houtputs⟩
    exact ⟨d.inputs, hinputs, ⟨d.inputs, [], d.inputs_nodup, List.nodup_nil⟩, ⟨rfl, rfl⟩, d.outputs,
      houtputs, rfl, rfl⟩

/-- **Which files are accepted.**  A file describes a circuit if each of its lines can be read and
the declarations of inputs and of outputs, in the order of their lines, make the pins of the
circuit. -/
theorem read_eq_ok_iff {content : List UInt8} {d : Circuit} :
    read content = .ok d ↔
      (∀ line ∈ lines content, (declared? line).isSome = true) ∧
        List.Forall₂ MakesInput ((lines content).filterMap lineInput?) d.inputs ∧
        List.Forall₂ (MakesOutput d.inputPositions) ((lines content).filterMap lineOutput?)
          d.outputs := by
  have hinput : (lines content).filterMap lineInput? =
      ((lines content).filterMap fun line => (declared? line).join).filterMap Statement.input? :=
    List.filterMap_filterMap.symm
  have houtput : (lines content).filterMap lineOutput? =
      ((lines content).filterMap fun line => (declared? line).join).filterMap Statement.output? :=
    List.filterMap_filterMap.symm
  rw [read, bind_eq_ok_iff, hinput, houtput]
  simp only [circuit_eq_ok_iff]
  constructor
  · rintro ⟨found, hfound, hpins⟩
    obtain ⟨hdeclared, hstatements⟩ := map_statementsFrom_eq_ok_iff.1
      (map_eq_ok_iff.2 ⟨found, hfound, rfl⟩)
    rw [hstatements]
    exact ⟨hdeclared, hpins⟩
  · rintro ⟨hdeclared, hpins⟩
    have hstatements : (statements content).map (List.map NumberedStatement.statement) =
        .ok ((lines content).filterMap fun line => (declared? line).join) :=
      map_statementsFrom_eq_ok_iff.2 ⟨hdeclared, rfl⟩
    obtain ⟨found, hfound, hstatements⟩ := map_eq_ok_iff.1 hstatements
    rw [← hstatements] at hpins
    exact ⟨found, hfound, hpins⟩

/-! ## Outputs of an accepted file -/

theorem FixedGate.Makes.isReadable {gate : FixedGate} {es : List Formula} {e : Formula}
    (h : gate.Makes es e) {count : Nat} (hes : ∀ x ∈ es, x.isReadable count = true) :
    e.isReadable count = true := by
  cases h <;> simpa [Formula.isReadable, and_assoc] using hes

/-- A derived formula can be read over as many inputs as there are places. -/
theorem isReadable_of_derives {place? : Position → Option Nat} {count : Nat}
    (hplace : ∀ p place, place? p = some place → place < count) {tokens : List Token} {e : Formula}
    (h : Derives place? tokens e) : e.isReadable count = true := by
  have hall {parts : List (List Token)} {es : List Formula}
      (ih : List.Forall₂ (fun _ e => e.isReadable count = true) parts es) :
      ∀ e ∈ es, e.isReadable count = true :=
    forall_mem_of_parts ih
  have hgate {es : List Formula} (hne : es ≠ []) (hes : ∀ e ∈ es, e.isReadable count = true) :
      (!es.isEmpty && Formula.allReadable count es) = true := by
    simp [hne, Formula.allReadable_iff.2 hes]
  refine Derives.induct (motive := fun _ e => e.isReadable count = true)
    ?const ?input ?fixed ?gate ?lookUp h
  case const =>
    intros
    rfl
  case input =>
    intro token p place _ hp
    exact decide_eq_true (hplace p place hp)
  case fixed =>
    intro token gate parts es e _ hmakes _ ih
    exact hmakes.isReadable (hall ih)
  case gate =>
    intro token connective parts es _ hne _ ih
    exact hgate hne (hall ih)
  case lookUp =>
    intro token hex mask parts es _ _ hne _ ih
    exact hgate hne (hall ih)

theorem exists_of_mem_right {α β : Type} {R : α → β → Prop} {xs : List α} {ys : List β}
    (h : List.Forall₂ R xs ys) {y : β} (hy : y ∈ ys) : ∃ x ∈ xs, R x y := by
  induction h with
  | nil => cases hy
  | cons hfirst _ ih =>
    rcases List.mem_cons.1 hy with rfl | hmem
    · exact ⟨_, List.mem_cons_self, hfirst⟩
    · obtain ⟨x, hx, hR⟩ := ih hmem
      exact ⟨x, List.mem_cons_of_mem _ hx, hR⟩

variable {content : List UInt8} {d : Circuit}

/-- Every output of the circuit of a file is a formula that can be read over its inputs, and whose
masks fit. -/
theorem isReadable_of_read (h : read content = .ok d) {pin : OutputPin} (hpin : pin ∈ d.outputs) :
    ∃ f, pin.behaviour = .formula f ∧ f.isReadable d.inputs.length = true ∧
      f.masksFit = true := by
  obtain ⟨-, -, houtputs⟩ := read_eq_ok_iff.1 h
  obtain ⟨declared, -, hmakes⟩ := exists_of_mem_right houtputs hpin
  obtain ⟨f, hparse, hformula⟩ := hmakes.formula
  have hderives := parseExpression_eq_ok_iff.1 hparse
  refine ⟨f, Behaviour.eq_formula_of_formula? hformula,
    isReadable_of_derives (fun p place hplace => ?_) hderives, masksFit_of_derives hderives⟩
  rw [← d.length_inputPositions]
  exact (List.idxOf?_eq_some_iff.1 hplace).1

/-- **Every output of the circuit of a file has values everywhere.** -/
theorem isTotal_of_read (h : read content = .ok d) : d.IsTotal := by
  intro a ha pin hpin
  obtain ⟨f, hbehaviour, hreadable, hmasks⟩ := isReadable_of_read h hpin
  rw [← ha] at hreadable
  rw [OutputPin.value?, hbehaviour]
  exact Formula.isSome_value?_of_accepts (Formula.masksCover_of_masksFit hmasks)
    (Formula.accepts_of_isReadable hreadable)

end PinFile

end VoxelLogic
