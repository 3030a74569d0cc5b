import VoxelLogic.Proofs.PinFile.Statement

/-!
# Circuits through pin files

A circuit whose outputs are given by formulas can be written.  If the masks of its look-up tables
are read back from their texts, the file is read back as the same circuit exactly if every formula
can be read.

* `Circuit.restored`: a circuit as it comes back.
* `writtenLines`: the lines of the file (`write?_eq`), and their statements
  (`statements_fileText`).
* `read_fileText`, `read_fileText_eq_error`: reading the file.
* `read_write?`: the round trip with its exact domain.
-/

namespace VoxelLogic

/-- A circuit as it is read back. -/
def Circuit.restored (c : Circuit) : Circuit where
  inputs := c.inputs.map InputPin.restored
  outputs := c.outputs.map OutputPin.restored
  inputs_nodup := by
    rw [List.map_map]
    exact c.inputs_nodup
  outputs_nodup := by
    rw [List.map_map]
    exact c.outputs_nodup

/-- The formula of an output that is given by one. -/
def OutputPin.formula (pin : OutputPin) : Formula := pin.behaviour.formula?.getD (.const false)

/-- Whether the formula of an output, if it has one, can be read over a number of inputs. -/
def OutputPin.isReadable (inputs : Nat) (pin : OutputPin) : Bool :=
  pin.behaviour.formula?.all (·.isReadable inputs)

/-- The masks of the formula of an output, if it has one, are read back from their texts. -/
def OutputPin.MasksReadBack (pin : OutputPin) : Prop :=
  ∀ f, pin.behaviour.formula? = some f → f.MasksReadBack

/-- Every output of a circuit is given by a formula. -/
def Circuit.HasFormulas (c : Circuit) : Prop :=
  ∀ pin ∈ c.outputs, pin.behaviour.formula?.isSome = true

theorem OutputPin.formula?_of_isSome {pin : OutputPin} (h : pin.behaviour.formula?.isSome = true) :
    pin.behaviour.formula? = some pin.formula := by
  obtain ⟨f, hf⟩ := Option.isSome_iff_exists.1 h
  rw [OutputPin.formula, hf, Option.getD_some]

theorem OutputPin.masksReadBack_of_masksFit {pin : OutputPin}
    (h : pin.behaviour.formula?.all (·.masksFit) = true) : pin.MasksReadBack := by
  intro f hf
  rw [hf, Option.all_some] at h
  exact Formula.masksReadBack_of_masksFit h

theorem OutputPin.isReadable_eq {pin : OutputPin} (h : pin.behaviour.formula?.isSome = true)
    (inputs : Nat) : pin.isReadable inputs = pin.formula.isReadable inputs := by
  rw [OutputPin.isReadable, OutputPin.formula?_of_isSome h, Option.all_some]

namespace PinFile

open Text Token

/-! ## Lines -/

/-- The names of the inputs of a circuit. -/
def inputNames (c : Circuit) : List String := c.inputPositions.map Position.token

/-- The lines of the file of a circuit whose outputs are given by formulas. -/
def writtenLines (c : Circuit) : List String :=
  ["# .pins file", "# Generated by voxtable"] ++ c.inputs.map inputLine ++ [""] ++
    c.outputs.map fun pin => outputLine (inputNames c) pin pin.formula

theorem isWord_of_mem_inputNames {c : Circuit} : ∀ name ∈ inputNames c, IsWord name.toList := by
  intro name hname
  obtain ⟨p, -, rfl⟩ := List.mem_map.1 hname
  exact isWord_token p

/-- The file of a circuit whose outputs are given by formulas. -/
def fileText (c : Circuit) : String := String.join ((writtenLines c).map (· ++ "\n"))

/-- A circuit is written line by line. -/
theorem write?_eq {c : Circuit} (h : c.HasFormulas) : write? c = some (fileText c) := by
  have houtputs : c.outputs.mapM (outputLine? (inputNames c)) =
      some (c.outputs.map fun pin => outputLine (inputNames c) pin pin.formula) := by
    rw [mapM_eq_some_iff, List.map_map]
    refine List.map_congr_left fun pin hpin => ?_
    rw [outputLine?, writtenFormula?, OutputPin.formula?_of_isSome (h pin hpin)]
    rfl
  rw [write?, fileLines?, ← inputNames, houtputs]
  rfl

/-- No line feed stands in a text that spells tokens. -/
theorem newline_notMem_of_spells {text : List Char} {tokens : List Token}
    (h : Spells text tokens) : '\n' ∉ text := by
  induction h with
  | nil => exact List.not_mem_nil
  | blank _ ih =>
    intro hmem
    rcases List.mem_cons.1 hmem with heq | hmem
    · exact absurd heq (by decide)
    · exact ih hmem
  | mark hmark _ ih =>
    intro hmem
    rcases List.mem_cons.1 hmem with rfl | hmem
    · exact absurd (mem_of_ofMark? hmark) (by decide)
    · exact ih hmem
  | word hrun _ _ ih =>
    intro hmem
    rcases List.mem_append.1 hmem with hmem | hmem
    · exact absurd (hrun.2 _ hmem) (by decide)
    · exact ih hmem

theorem newline_notMem_writtenLines (c : Circuit) :
    ∀ line ∈ writtenLines c, '\n' ∉ line.toList := by
  intro line hline
  simp only [writtenLines, List.mem_append, List.mem_cons, List.mem_map, List.not_mem_nil,
    or_false] at hline
  rcases hline with (((rfl | rfl) | ⟨pin, -, rfl⟩) | rfl) | ⟨pin, -, rfl⟩
  · decide
  · decide
  · exact newline_notMem_of_spells (spells_inputLine pin)
  · decide
  · exact newline_notMem_of_spells (spells_outputLine isWord_of_mem_inputNames pin pin.formula)

/-! ## Statements -/

/-- Statements on consecutive lines. -/
def numberedFrom (number : Nat) : List Statement → List NumberedStatement
  | [] => []
  | statement :: rest => ⟨number, statement⟩ :: numberedFrom (number + 1) rest

/-- The statement that declares an input. -/
def inputStatement (pin : InputPin) : Statement := .input (declarationOf pin.position pin.type)

/-- The statement that declares an output. -/
def outputStatement (names : List String) (pin : OutputPin) : Statement :=
  .output (declarationOf pin.position pin.type) (tokensOf names pin.formula)

theorem lineStatement_encode (number : Nat) (line : String) :
    lineStatement number (encode line) = atLine number (Statement.ofLine line.toList) := by
  rw [lineStatement, decode?_encode]

/-- A line without a statement is passed over. -/
theorem statementsFrom_cons_none {number : Nat} {line : String} {rest : List (List UInt8)}
    (h : Statement.ofLine line.toList = .ok none) :
    statementsFrom number (encode line :: rest) = statementsFrom (number + 1) rest := by
  rw [statementsFrom, lineStatement_encode, h, atLine]

/-- Lines with a statement each give their statements in order. -/
theorem statementsFrom_append {α : Type} {line : α → String} {statement : α → Statement}
    {xs : List α} (h : ∀ x ∈ xs, Statement.ofLine (line x).toList = .ok (some (statement x)))
    {number : Nat} {rest : List (List UInt8)} {more : List NumberedStatement}
    (hrest : statementsFrom (number + xs.length) rest = .ok more) :
    statementsFrom number ((xs.map line).map encode ++ rest) =
      .ok (numberedFrom number (xs.map statement) ++ more) := by
  induction xs generalizing number with
  | nil => exact hrest
  | cons x xs ih =>
    have hlength : number + (x :: xs).length = number + 1 + xs.length := by
      rw [List.length_cons]
      omega
    rw [hlength] at hrest
    have hmore := ih (fun y hy => h y (List.mem_cons_of_mem x hy)) hrest
    rw [List.map_cons, List.map_cons, List.cons_append, statementsFrom, lineStatement_encode,
      h x List.mem_cons_self, atLine]
    simp only [hmore]
    rfl

/-- The statements of the file of a circuit: the inputs from the third line on, and after an empty
line the outputs. -/
theorem statements_fileText (c : Circuit) :
    statements (encode (fileText c)) =
      .ok (numberedFrom 3 (c.inputs.map inputStatement) ++
        numberedFrom (c.inputs.length + 4) (c.outputs.map (outputStatement (inputNames c)))) := by
  have hend : statementsFrom (c.inputs.length + 4 + c.outputs.length) [[]] = .ok [] := by
    have hlast : statementsFrom (c.inputs.length + 4 + c.outputs.length) [encode ""] = .ok [] :=
      statementsFrom_cons_none ofLine_empty
    exact hlast
  have houtputs : statementsFrom (c.inputs.length + 4)
      ((c.outputs.map fun pin => outputLine (inputNames c) pin pin.formula).map encode ++ [[]]) =
      .ok (numberedFrom (c.inputs.length + 4) (c.outputs.map (outputStatement (inputNames c))) ++
        []) :=
    statementsFrom_append
      (fun pin _ => statement_outputLine isWord_of_mem_inputNames pin pin.formula) hend
  have hempty : statementsFrom (3 + c.inputs.length) (encode "" ::
      ((c.outputs.map fun pin => outputLine (inputNames c) pin pin.formula).map encode ++ [[]])) =
      .ok (numberedFrom (c.inputs.length + 4)
        (c.outputs.map (outputStatement (inputNames c)))) := by
    have hnumber : 3 + c.inputs.length + 1 = c.inputs.length + 4 := by omega
    rw [statementsFrom_cons_none ofLine_empty, hnumber, houtputs, List.append_nil]
  have hinputs := statementsFrom_append (fun pin _ => statement_inputLine pin) hempty
  have hlines : (writtenLines c).map encode ++ [[]] =
      encode "# .pins file" :: encode "# Generated by voxtable" ::
        ((c.inputs.map inputLine).map encode ++ encode "" ::
          ((c.outputs.map fun pin => outputLine (inputNames c) pin pin.formula).map encode ++
            [[]])) := by
    simp only [writtenLines, List.map_append, List.map_cons, List.append_assoc,
      List.cons_append, List.nil_append]
  rw [statements, fileText, lines_encode_join (newline_notMem_writtenLines c), hlines,
    statementsFrom_cons_none (by decide), statementsFrom_cons_none (by decide)]
  exact hinputs

/-! ## Pins -/

theorem inputPins_outputs (names : List String) (pins : List OutputPin) (number : Nat) :
    inputPins (numberedFrom number (pins.map (outputStatement names))) = .ok [] := by
  induction pins generalizing number with
  | nil => rfl
  | cons pin pins ih =>
    rw [List.map_cons, outputStatement, numberedFrom, inputPins]
    exact ih (number + 1)

/-- The statements of inputs make the inputs. -/
theorem inputPins_inputs {rest : List NumberedStatement} (hrest : inputPins rest = .ok [])
    (pins : List InputPin) (number : Nat) :
    inputPins (numberedFrom number (pins.map inputStatement) ++ rest) =
      .ok (pins.map InputPin.restored) := by
  induction pins generalizing number with
  | nil => exact hrest
  | cons pin pins ih =>
    rw [List.map_cons, inputStatement, numberedFrom, List.cons_append, inputPins,
      inputPin_declarationOf, ih]
    rfl

theorem outputPins_inputs (inputs : List Position) (rest : List NumberedStatement)
    (pins : List InputPin) (number : Nat) :
    outputPins inputs (numberedFrom number (pins.map inputStatement) ++ rest) =
      outputPins inputs rest := by
  induction pins generalizing number with
  | nil => rfl
  | cons pin pins ih =>
    rw [List.map_cons, inputStatement, numberedFrom, List.cons_append, outputPins]
    exact ih (number + 1)

variable {inputs : List Position} {pins : List OutputPin}

/-- The statement of an output that can be read makes the output. -/
theorem outputPin_of_isReadable (hinputs : inputs.Nodup) {pin : OutputPin}
    (hformula : pin.behaviour.formula?.isSome = true) (hmasks : pin.MasksReadBack)
    (h : pin.isReadable inputs.length = true) (number : Nat) :
    outputPin inputs number (declarationOf pin.position pin.type)
      (tokensOver inputs pin.formula) = .ok pin.restored := by
  have hfound := OutputPin.formula?_of_isSome hformula
  rw [OutputPin.isReadable_eq hformula] at h
  exact outputPin_declarationOf hfound
    (parseExpression_tokensOf hinputs (hmasks pin.formula hfound) h) number

/-- The statements of outputs that can be read make the outputs. -/
theorem outputPins_outputs (hinputs : inputs.Nodup)
    (hformulas : ∀ pin ∈ pins, pin.behaviour.formula?.isSome = true)
    (hmasks : ∀ pin ∈ pins, pin.MasksReadBack)
    (h : ∀ pin ∈ pins, pin.isReadable inputs.length = true) (number : Nat) :
    outputPins inputs (numberedFrom number
      (pins.map (outputStatement (inputs.map Position.token)))) =
      .ok (pins.map OutputPin.restored) := by
  induction pins generalizing number with
  | nil => rfl
  | cons pin pins ih =>
    rw [List.forall_mem_cons] at hformulas hmasks h
    have hfirst := outputPin_of_isReadable hinputs hformulas.1 hmasks.1 h.1 number
    have hmore := ih hformulas.2 hmasks.2 h.2 (number + 1)
    rw [List.map_cons, outputStatement, numberedFrom, outputPins, hfirst, hmore]
    rfl

/-- The first output that cannot be read is reported at its line. -/
theorem outputPins_outputs_eq_error (hinputs : inputs.Nodup)
    (hformulas : ∀ pin ∈ pins, pin.behaviour.formula?.isSome = true)
    (hmasks : ∀ pin ∈ pins, pin.MasksReadBack) {k : Nat}
    (h : pins.findIdx? (fun pin => !pin.isReadable inputs.length) = some k) (number : Nat) :
    ∃ token, outputPins inputs (numberedFrom number
      (pins.map (outputStatement (inputs.map Position.token)))) =
      .error (.line (number + k) (.expression (.unknownOperand token))) := by
  induction pins generalizing number k with
  | nil => cases h
  | cons pin pins ih =>
    rw [List.forall_mem_cons] at hformulas hmasks
    rw [List.map_cons, outputStatement, numberedFrom, outputPins]
    rw [List.findIdx?_cons] at h
    cases hreadable : pin.isReadable inputs.length with
    | false =>
      rw [hreadable] at h
      obtain rfl : 0 = k := Option.some.inj h
      have hfound := OutputPin.formula?_of_isSome hformulas.1
      rw [OutputPin.isReadable_eq hformulas.1] at hreadable
      obtain ⟨token, hparse⟩ :=
        parseExpression_tokensOf_eq_error hinputs (hmasks.1 pin.formula hfound) hreadable
      refine ⟨token, ?_⟩
      rw [outputPin_declarationOf_eq_error hparse]
      rfl
    | true =>
      rw [hreadable] at h
      obtain ⟨j, hj, rfl⟩ := Option.map_eq_some_iff.1 h
      obtain ⟨token, hmore⟩ := ih hformulas.2 hmasks.2 hj (number + 1)
      have hnumber : number + 1 + j = number + (j + 1) := by omega
      refine ⟨token, ?_⟩
      rw [outputPin_of_isReadable hinputs hformulas.1 hmasks.1 hreadable, hmore, hnumber]
      rfl

/-! ## Files -/

variable {c : Circuit}

theorem circuit_writtenStatements (c : Circuit) :
    circuit (numberedFrom 3 (c.inputs.map inputStatement) ++
      numberedFrom (c.inputs.length + 4) (c.outputs.map (outputStatement (inputNames c)))) =
      (outputPins c.inputPositions (numberedFrom (c.inputs.length + 4)
        (c.outputs.map (outputStatement (inputNames c))))).bind
          (⟨c.restored.inputs, [], c.restored.inputs_nodup, List.nodup_nil⟩ :
            Circuit).withOutputs := by
  have hinputs := inputPins_inputs
    (inputPins_outputs (inputNames c) c.outputs (c.inputs.length + 4)) c.inputs 3
  have hwith : Circuit.empty.withInputs (c.inputs.map InputPin.restored) =
      .ok ⟨c.restored.inputs, [], c.restored.inputs_nodup, List.nodup_nil⟩ :=
    Circuit.withInputs_eq_ok_iff.2 ⟨rfl, rfl⟩
  have hpositions : (⟨c.restored.inputs, [], c.restored.inputs_nodup, List.nodup_nil⟩ :
      Circuit).inputPositions = c.inputPositions := List.map_map
  rw [circuit, hinputs]
  simp only [do_eq_bind, Except.bind, hwith, hpositions, outputPins_inputs]

/-- The file of a circuit whose formulas can all be read is read back as the circuit. -/
theorem read_fileText (h : c.HasFormulas) (hmasks : ∀ pin ∈ c.outputs, pin.MasksReadBack)
    (hreadable : ∀ pin ∈ c.outputs, pin.isReadable c.inputs.length = true) :
    read (encode (fileText c)) = .ok c.restored := by
  have hinputs : c.inputPositions.Nodup := c.inputs_nodup
  have houtputs := outputPins_outputs hinputs h hmasks (by rwa [c.length_inputPositions])
    (c.inputs.length + 4)
  rw [read, statements_fileText, Except.bind, circuit_writtenStatements, inputNames, houtputs,
    Except.bind]
  exact Circuit.withOutputs_eq_ok_iff.2 ⟨rfl, rfl⟩

/-- The file of a circuit is refused at the line of the first output that cannot be read. -/
theorem read_fileText_eq_error (h : c.HasFormulas)
    (hmasks : ∀ pin ∈ c.outputs, pin.MasksReadBack) {k : Nat}
    (hk : c.outputs.findIdx? (fun pin => !pin.isReadable c.inputs.length) = some k) :
    ∃ token, read (encode (fileText c)) =
      .error (.line (c.inputs.length + 4 + k) (.expression (.unknownOperand token))) := by
  have hinputs : c.inputPositions.Nodup := c.inputs_nodup
  obtain ⟨token, houtputs⟩ := outputPins_outputs_eq_error hinputs h hmasks
    (by rwa [c.length_inputPositions]) (c.inputs.length + 4)
  refine ⟨token, ?_⟩
  rw [read, statements_fileText, Except.bind, circuit_writtenStatements, inputNames, houtputs,
    Except.bind]

/-- A file is read back exactly if every formula in it can be read. -/
theorem exists_read_fileText_iff (h : c.HasFormulas)
    (hmasks : ∀ pin ∈ c.outputs, pin.MasksReadBack) :
    (∃ d, read (encode (fileText c)) = .ok d) ↔
      ∀ pin ∈ c.outputs, pin.isReadable c.inputs.length = true := by
  constructor
  · rintro ⟨d, hd⟩
    cases hk : c.outputs.findIdx? fun pin => !pin.isReadable c.inputs.length with
    | none =>
      intro pin hpin
      simpa using List.findIdx?_eq_none_iff.1 hk pin hpin
    | some k =>
      obtain ⟨token, herror⟩ := read_fileText_eq_error h hmasks hk
      rw [herror] at hd
      cases hd
  · intro hreadable
    exact ⟨c.restored, read_fileText h hmasks hreadable⟩

end PinFile

/-- **Circuits through pin files.**  A circuit whose outputs are given by formulas can be written.
Suppose that for every look-up table in them that has arguments, reading the text of its mask for so
many arguments gives the mask.  Then the file can be read exactly if no gate or table of an output
lacks arguments and no output refers to an input that the circuit does not have.  The pins come back
in their order with their positions and type codes, a type with code zero as power, and every output
with the same formula.  Otherwise the first output that cannot be read is reported at its line. -/
theorem read_write? (c : Circuit) (h : ∀ pin ∈ c.outputs, pin.behaviour.formula?.isSome = true)
    (hmasks : ∀ pin ∈ c.outputs, ∀ f, pin.behaviour.formula? = some f →
      ∀ mask es, Formula.Occurs (.lookUp mask es) f → es ≠ [] →
        Mask.ofText? es.length mask.text.toList = some mask) :
    ∃ text, PinFile.write? c = some text ∧
      ((∃ d, PinFile.read (Text.encode text) = .ok d) ↔
        ∀ pin ∈ c.outputs, pin.isReadable c.inputs.length = true) ∧
      (∀ d, PinFile.read (Text.encode text) = .ok d →
        d.inputs.map (fun pin => (pin.position, pin.type)) =
            c.inputs.map (fun pin => (pin.position, PinType.ofCode pin.type.code)) ∧
          d.outputs.map (fun pin => (pin.position, pin.type, pin.behaviour.formula?)) =
            c.outputs.map fun pin =>
              (pin.position, PinType.ofCode pin.type.code, pin.behaviour.formula?)) ∧
      ∀ k, c.outputs.findIdx? (fun pin => !pin.isReadable c.inputs.length) = some k →
        ∃ token, PinFile.read (Text.encode text) =
          .error (.line (c.inputs.length + 4 + k) (.expression (.unknownOperand token))) := by
  refine ⟨PinFile.fileText c, PinFile.write?_eq h, PinFile.exists_read_fileText_iff h hmasks,
    fun d hd => ?_, fun k => PinFile.read_fileText_eq_error h hmasks⟩
  have hreadable := (PinFile.exists_read_fileText_iff h hmasks).1 ⟨d, hd⟩
  rw [PinFile.read_fileText h hmasks hreadable] at hd
  obtain rfl : c.restored = d := Except.ok.inj hd
  exact ⟨List.map_map, List.map_map⟩

/-- A circuit with gates of every kind. -/
def assorted : Circuit where
  inputs := [⟨.site .front .top .left, .other 9, rfl⟩, ⟨.site .back .middle .middle, .other 0, rfl⟩]
  outputs := [⟨.slot ⟨4, by decide⟩, .power,
      .formula (.mux (.not (.input 1)) (.lookUp (.ofNibble 2 6) [.input 0, .input 1])
        (.majority (.input 0) (.const true) (.gate .xnor [.input 1]))), rfl⟩,
    ⟨.site .front .top .left, .other 200, .formula (.gate .nor [.const false, .input 0]), rfl⟩]
  inputs_nodup := firstRepeat?_eq_none_iff.1 rfl
  outputs_nodup := firstRepeat?_eq_none_iff.1 rfl

/-- A circuit whose second output has a gate without arguments inside a formula. -/
def hollow : Circuit where
  inputs := assorted.inputs
  outputs := [⟨.slot ⟨4, by decide⟩, .power, .formula (.input 1), rfl⟩,
    ⟨.slot ⟨5, by decide⟩, .power, .formula (.not (.gate .and [])), rfl⟩,
    ⟨.slot ⟨6, by decide⟩, .power, .formula (.input 2), rfl⟩]
  inputs_nodup := firstRepeat?_eq_none_iff.1 rfl
  outputs_nodup := firstRepeat?_eq_none_iff.1 rfl

/-- The first circuit comes back, and the second is refused at the line of its second output. -/
theorem read_write?_assorted_hollow :
    (∃ text d, PinFile.write? assorted = some text ∧ PinFile.read (Text.encode text) = .ok d ∧
      d.inputs.map InputPin.type = [.other 9, .power] ∧
      d.outputs.map (·.behaviour.formula?) = assorted.outputs.map (·.behaviour.formula?)) ∧
    ∃ text token, PinFile.write? hollow = some text ∧
      PinFile.read (Text.encode text) =
        .error (.line 7 (.expression (.unknownOperand token))) := by
  have hmasks : (∀ pin ∈ assorted.outputs, pin.behaviour.formula?.all (·.masksFit) = true) ∧
      ∀ pin ∈ hollow.outputs, pin.behaviour.formula?.all (·.masksFit) = true := by decide
  constructor
  · obtain ⟨text, hwrite, hiff, hback, -⟩ := read_write? assorted (by decide)
      fun pin hpin => OutputPin.masksReadBack_of_masksFit (hmasks.1 pin hpin)
    obtain ⟨d, hd⟩ := hiff.2 (by decide)
    obtain ⟨hinputs, houtputs⟩ := hback d hd
    have htypes := congrArg (List.map Prod.snd) hinputs
    have hformulas := congrArg (List.map fun pin => pin.2.2) houtputs
    rw [List.map_map] at htypes hformulas
    exact ⟨text, d, hwrite, hd, htypes, hformulas⟩
  · obtain ⟨text, hwrite, -, -, hrefused⟩ := read_write? hollow (by decide)
      fun pin hpin => OutputPin.masksReadBack_of_masksFit (hmasks.2 pin hpin)
    obtain ⟨token, htoken⟩ := hrefused 1 (by decide)
    exact ⟨text, token, hwrite, htoken⟩

end VoxelLogic
