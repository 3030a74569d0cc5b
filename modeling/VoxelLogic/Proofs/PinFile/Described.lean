import VoxelLogic.Proofs.Formula.SumOfProducts
import VoxelLogic.Proofs.PinFile.RoundTrip
import VoxelLogic.Proofs.Record.CanonicalForm

/-!
# Any behaviour through pin files

An output that is not given by a formula is written as a sum of products.  So a circuit whose
outputs have values everywhere can be written whatever its outputs are.  If its formulas can be read
and their masks are read back, it comes back as a circuit with formulas that describes the same
module.

* `Circuit.described`: the circuit with the formulas that stand in its file.
* `write?_described`: both have the same file.
* `exists_read_described`: the file is read back as that circuit.
* `exists_read_write?`: the file and the circuit that is read from it, as a module.
-/

namespace VoxelLogic

open PinFile

variable {inputs : Nat} {pin : OutputPin} {f : Formula}

/-! ## Outputs -/

/-- An output given by the formula that stands in its line, if there is one. -/
def OutputPin.described (inputs : Nat) (pin : OutputPin) : OutputPin :=
  match writtenFormula? inputs pin.behaviour with
  | none => pin
  | some f => { pin with behaviour := .formula f }

theorem OutputPin.described_of_none (h : writtenFormula? inputs pin.behaviour = none) :
    pin.described inputs = pin := by
  rw [OutputPin.described, h]

theorem OutputPin.described_of_some (h : writtenFormula? inputs pin.behaviour = some f) :
    pin.described inputs = { pin with behaviour := .formula f } := by
  rw [OutputPin.described, h]

@[simp] theorem OutputPin.position_described (inputs : Nat) (pin : OutputPin) :
    (pin.described inputs).position = pin.position := by
  unfold OutputPin.described
  split <;> rfl

@[simp] theorem OutputPin.type_described (inputs : Nat) (pin : OutputPin) :
    (pin.described inputs).type = pin.type := by
  unfold OutputPin.described
  split <;> rfl

/-- An output and its description have the same line. -/
theorem outputLine?_described (names : List String) (pin : OutputPin) :
    outputLine? names (pin.described names.length) = outputLine? names pin := by
  cases h : writtenFormula? names.length pin.behaviour with
  | none => rw [OutputPin.described_of_none h]
  | some f =>
    rw [OutputPin.described_of_some h, outputLine?, outputLine?, h]
    rfl

/-- An output that has values everywhere has a formula in its line. -/
theorem exists_writtenFormula
    (h : ∀ a : Assignment, a.length = inputs → (pin.value? a).isSome = true) :
    ∃ f, writtenFormula? inputs pin.behaviour = some f := by
  rw [writtenFormula?]
  split
  · exact ⟨_, rfl⟩
  · exact Formula.exists_sumOfProducts h

/-- An output that has values everywhere has the same values as its description. -/
theorem value?_described
    (h : ∀ a : Assignment, a.length = inputs → (pin.value? a).isSome = true) {a : Assignment}
    (ha : a.length = inputs) : (pin.described inputs).value? a = pin.value? a := by
  obtain ⟨f, hf⟩ := exists_writtenFormula h
  have hvalue : (pin.described inputs).value? a = f.value? a := by
    rw [OutputPin.described_of_some hf]
    rfl
  rw [hvalue]
  rw [writtenFormula?] at hf
  split at hf
  · next g hg =>
    obtain rfl : g = f := Option.some.inj hf
    rw [OutputPin.value?, Behaviour.eq_formula_of_formula? hg, Behaviour.value?]
  · exact Formula.value?_of_sumOfProducts? h hf ha

/-- A description can be read if the formula of the output, if there is one, can be. -/
theorem isReadable_described (h : pin.isReadable inputs = true) :
    (pin.described inputs).isReadable inputs = true := by
  cases hf : writtenFormula? inputs pin.behaviour with
  | none => rwa [OutputPin.described_of_none hf]
  | some f =>
    have hreadable : f.isReadable inputs = true := by
      rw [writtenFormula?] at hf
      split at hf
      · next g hg =>
        obtain rfl : g = f := Option.some.inj hf
        rwa [OutputPin.isReadable, hg, Option.all_some] at h
      · exact Formula.isReadable_of_sumOfProducts? hf
    rw [OutputPin.described_of_some hf]
    exact hreadable

/-- The masks of a description are read back if those of the formula of the output, if there is one,
are. -/
theorem masksReadBack_described (h : pin.MasksReadBack) : (pin.described inputs).MasksReadBack := by
  cases hf : writtenFormula? inputs pin.behaviour with
  | none => rwa [OutputPin.described_of_none hf]
  | some f =>
    have hmasks : f.MasksReadBack := by
      rw [writtenFormula?] at hf
      split at hf
      · next g hg =>
        obtain rfl : g = f := Option.some.inj hf
        exact h g hg
      · exact Formula.masksReadBack_of_masksFit (Formula.masksFit_of_sumOfProducts? hf)
    rw [OutputPin.described_of_some hf]
    rintro g ⟨⟩
    exact hmasks

/-! ## Circuits -/

/-- A circuit given by the formulas that stand in its file. -/
def Circuit.described (c : Circuit) : Circuit where
  inputs := c.inputs
  outputs := c.outputs.map (OutputPin.described c.inputs.length)
  inputs_nodup := c.inputs_nodup
  outputs_nodup := by
    rw [List.map_map]
    simpa only [Function.comp_def, OutputPin.position_described] using c.outputs_nodup

variable {c : Circuit}

/-- A circuit and its description have the same file. -/
theorem write?_described (c : Circuit) : write? c.described = write? c := by
  have hlength : c.inputs.length = (c.inputPositions.map Position.token).length := by
    rw [List.length_map, c.length_inputPositions]
  have hlines : (c.outputs.map (OutputPin.described c.inputs.length)).mapM
      (outputLine? (c.inputPositions.map Position.token)) =
      c.outputs.mapM (outputLine? (c.inputPositions.map Position.token)) := by
    rw [List.mapM_map, hlength]
    simp only [Function.comp_def, outputLine?_described]
  have hinputs : c.described.inputPositions = c.inputPositions := rfl
  rw [write?, write?, fileLines?, fileLines?, hinputs, Circuit.described, hlines]

theorem hasFormulas_described (hc : c.IsTotal) : c.described.HasFormulas := by
  intro pin hpin
  obtain ⟨o, ho, rfl⟩ := List.mem_map.1 hpin
  obtain ⟨f, hf⟩ := exists_writtenFormula fun a ha => hc a ha o ho
  rw [OutputPin.described_of_some hf]
  rfl

/-- The outputs of a circuit that comes back from its file have the values of the outputs that were
written. -/
theorem exists_output_restored_described (hc : c.IsTotal) {pin : OutputPin}
    (hpin : pin ∈ c.described.restored.outputs) :
    ∃ o ∈ c.outputs, pin = (o.described c.inputs.length).restored ∧
      ∀ a : Assignment, a.length = c.inputs.length → pin.value? a = o.value? a := by
  obtain ⟨e, he, rfl⟩ := List.mem_map.1 hpin
  obtain ⟨o, ho, rfl⟩ := List.mem_map.1 he
  exact ⟨o, ho, rfl, fun a ha => value?_described (fun b hb => hc b hb o ho) ha⟩

theorem inputPositions_restored_described (c : Circuit) :
    c.described.restored.inputPositions = c.inputPositions :=
  List.map_map

theorem inputCodes_restored_described (c : Circuit) :
    c.described.restored.inputCodes = c.inputCodes := by
  rw [Circuit.inputCodes, Circuit.restored, List.map_map]
  exact List.map_congr_left fun pin _ => Prod.ext rfl (PinType.code_ofCode pin.type.code)

theorem outputCodes_restored_described (c : Circuit) :
    c.described.restored.outputCodes = c.outputCodes := by
  rw [Circuit.outputCodes, Circuit.restored, Circuit.described, List.map_map, List.map_map]
  refine List.map_congr_left fun pin _ => Prod.ext (OutputPin.position_described _ pin) ?_
  exact (PinType.code_ofCode _).trans (congrArg PinType.code (OutputPin.type_described _ pin))

theorem length_inputs_restored_described (c : Circuit) :
    c.described.restored.inputs.length = c.inputs.length :=
  List.length_map _

/-- A circuit that comes back from its file describes the same module. -/
theorem sameModule_restored_described (hc : c.IsTotal) :
    c.described.restored.SameModule c := by
  have hinputs := inputCodes_restored_described c
  have houtputs := outputCodes_restored_described c
  refine ⟨fun pin => by rw [hinputs], fun pin => by rw [houtputs], fun v p hp => ?_⟩
  obtain ⟨pin, hpin, rfl⟩ := List.mem_map.1 hp
  obtain ⟨o, ho, rfl, hvalue⟩ := exists_output_restored_described hc hpin
  have hposition : ((o.described c.inputs.length).restored).position = o.position :=
    OutputPin.position_described _ o
  have hassignment : c.described.restored.assignmentOf v = c.assignmentOf v := by
    rw [Circuit.assignmentOf, inputPositions_restored_described, Circuit.assignmentOf]
  rw [Circuit.valueAt?, hassignment, Circuit.outputAt?_of_mem hpin, hposition, Circuit.valueAt?,
    Circuit.outputAt?_of_mem ho, hvalue _ (c.length_assignmentOf v)]

theorem isTotal_restored_described (hc : c.IsTotal) : c.described.restored.IsTotal := by
  intro a ha pin hpin
  have hlength : a.length = c.inputs.length := ha.trans (length_inputs_restored_described c)
  obtain ⟨o, ho, -, hvalue⟩ := exists_output_restored_described hc hpin
  rw [hvalue a hlength]
  exact hc a hlength o ho

/-- A circuit whose outputs are formulas that can be read has enough inputs for them. -/
theorem check_of_isReadable (h : c.HasFormulas)
    (hreadable : ∀ pin ∈ c.outputs, pin.isReadable c.inputs.length = true) :
    c.check = .ok () := by
  rw [Circuit.check_eq_ok_iff]
  intro pin hpin
  have hformula := OutputPin.formula?_of_isSome (h pin hpin)
  have hbehaviour := Behaviour.eq_formula_of_formula? hformula
  have hread := hreadable pin hpin
  rw [OutputPin.isReadable_eq (h pin hpin)] at hread
  rw [OutputPin.accepts, hbehaviour, Behaviour.accepts, Formula.accepts_of_isReadable hread]

theorem isReadable_circuit_described
    (h : ∀ pin ∈ c.outputs, pin.isReadable c.inputs.length = true) :
    ∀ pin ∈ c.described.outputs, pin.isReadable c.described.inputs.length = true := by
  intro pin hpin
  obtain ⟨o, ho, rfl⟩ := List.mem_map.1 hpin
  exact isReadable_described (h o ho)

theorem masksReadBack_circuit_described (h : ∀ pin ∈ c.outputs, pin.MasksReadBack) :
    ∀ pin ∈ c.described.outputs, pin.MasksReadBack := by
  intro pin hpin
  obtain ⟨o, ho, rfl⟩ := List.mem_map.1 hpin
  exact masksReadBack_described (h o ho)

/-- The file of a circuit is read back as the circuit of the formulas that stand in it. -/
theorem exists_read_described (hc : c.IsTotal) (hmasks : ∀ pin ∈ c.outputs, pin.MasksReadBack)
    (hreadable : ∀ pin ∈ c.outputs, pin.isReadable c.inputs.length = true) :
    ∃ text, write? c = some text ∧
      PinFile.read (Text.encode text) = .ok c.described.restored := by
  have hformulas := hasFormulas_described hc
  refine ⟨fileText c.described, ?_, read_fileText hformulas
    (masksReadBack_circuit_described hmasks) (isReadable_circuit_described hreadable)⟩
  rw [← write?_described, write?_eq hformulas]

theorem check_restored_described (hc : c.IsTotal)
    (hreadable : ∀ pin ∈ c.outputs, pin.isReadable c.inputs.length = true) :
    c.described.restored.check = .ok () := by
  refine check_of_isReadable (fun pin hpin => ?_) fun pin hpin => ?_
  · obtain ⟨o, ho, rfl⟩ := List.mem_map.1 hpin
    exact hasFormulas_described hc o ho
  · obtain ⟨o, ho, rfl⟩ := List.mem_map.1 hpin
    rw [length_inputs_restored_described]
    exact isReadable_circuit_described hreadable o ho

/-- **Any behaviour through pin files.**  A circuit whose outputs have values everywhere can be
written.  If those of its outputs that are given by formulas can be read and their masks are read
back, the file is read back as a circuit that can be compiled and describes the same module. -/
theorem exists_read_write? (hc : c.IsTotal) (hmasks : ∀ pin ∈ c.outputs, pin.MasksReadBack)
    (hreadable : ∀ pin ∈ c.outputs, pin.isReadable c.inputs.length = true) :
    ∃ text d, write? c = some text ∧ PinFile.read (Text.encode text) = .ok d ∧
      d.check = .ok () ∧ d.IsTotal ∧ d.SameModule c := by
  obtain ⟨text, hwrite, hread⟩ := exists_read_described hc hmasks hreadable
  exact ⟨text, c.described.restored, hwrite, hread, check_restored_described hc hreadable,
    isTotal_restored_described hc, sameModule_restored_described hc⟩

end VoxelLogic
