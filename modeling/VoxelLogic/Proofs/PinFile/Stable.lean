import VoxelLogic.Circuit.Summary
import VoxelLogic.Proofs.Formula.Parts
import VoxelLogic.Proofs.PinFile.Described
import VoxelLogic.Proofs.PinFile.Format
import VoxelLogic.Proofs.PinFile.LineOrder
import VoxelLogic.Proofs.TruthTable.Inverse

/-!
# Accepted files are safe and stable

Whatever a file contains, the circuit that is read from it can be evaluated, tabulated and written,
and the file that is written is read back as the same circuit.

* `Circuit.IsSafe`: what can be done with a circuit without any further check.
* `Circuit.restored_eq`, `restored_of_read`: circuits that come back as they are, such as that of a
  file.
* `isSafe_of_read`: the circuit of a file is safe.
* `isSafe_and_stable_of_read`: it is safe, and its own file is read back as it.
-/

namespace VoxelLogic

/-- A circuit whose outputs are sound formulas, with a value at every assignment of its inputs, and
with a packed table, a summary and a truth table. -/
structure Circuit.IsSafe (d : Circuit) : Prop where
  check : d.check = .ok ()
  sound : ∀ pin ∈ d.outputs, ∃ f, pin.behaviour.formula? = some f ∧ f.IsSound d.inputs.length
  value : ∀ a : Assignment, a.length = d.inputs.length →
    ∀ pin ∈ d.outputs, ∃ v, pin.value? a = some v
  length_inputs_le : d.inputs.length ≤ 35
  length_outputs_le : d.outputs.length ≤ 35
  compiled : ∃ entries table, d.entries? = some entries ∧ d.compile? = some table ∧
    entries.map (fun e => PackedRow.pack? e.outputs) = table.map some
  summary : ∃ summary, d.summary? = some summary
  truthTable : ∃ columns, TruthTable.ofCircuit? d = some columns

/-! ## Pins that come back as they are -/

/-- An input whose type is the type of a code comes back as it is. -/
theorem InputPin.restored_eq {pin : InputPin} {code : UInt8} (h : pin.type = .ofCode code) :
    pin.restored = pin := by
  obtain ⟨position, type, takes⟩ := pin
  obtain rfl : type = .ofCode code := h
  simp only [InputPin.restored, PinType.code_ofCode]

/-- An output whose type is the type of a code comes back as it is. -/
theorem OutputPin.restored_eq {pin : OutputPin} {code : UInt8} (h : pin.type = .ofCode code) :
    pin.restored = pin := by
  obtain ⟨position, type, behaviour, takes⟩ := pin
  obtain rfl : type = .ofCode code := h
  simp only [OutputPin.restored, PinType.code_ofCode]

/-- A circuit whose pins come back as they are comes back as it is. -/
theorem Circuit.restored_eq {c : Circuit} (hinputs : ∀ pin ∈ c.inputs, pin.restored = pin)
    (houtputs : ∀ pin ∈ c.outputs, pin.restored = pin) : c.restored = c := by
  obtain ⟨inputs, outputs, hinputsNodup, houtputsNodup⟩ := c
  simp only [Circuit.restored, Circuit.mk.injEq]
  exact ⟨(List.map_congr_left hinputs).trans (List.map_id _),
    (List.map_congr_left houtputs).trans (List.map_id _)⟩

namespace PinFile

open Text

variable {content : List UInt8} {d : Circuit}

/-- The outputs of the circuit of a file are given by formulas. -/
theorem hasFormulas_of_read (h : read content = .ok d) : d.HasFormulas := by
  intro pin hpin
  obtain ⟨f, hbehaviour, -⟩ := isReadable_of_read h hpin
  rw [hbehaviour]
  rfl

/-- The formulas of the circuit of a file can be read over its inputs. -/
theorem forall_isReadable_of_read (h : read content = .ok d) :
    ∀ pin ∈ d.outputs, pin.isReadable d.inputs.length = true := by
  intro pin hpin
  obtain ⟨f, hbehaviour, hreadable, -⟩ := isReadable_of_read h hpin
  rw [OutputPin.isReadable, hbehaviour, Behaviour.formula?, Option.all_some]
  exact hreadable

/-- The masks of the circuit of a file are read back. -/
theorem forall_masksReadBack_of_read (h : read content = .ok d) :
    ∀ pin ∈ d.outputs, pin.MasksReadBack := by
  intro pin hpin
  obtain ⟨f, hbehaviour, -, hmasks⟩ := isReadable_of_read h hpin
  refine OutputPin.masksReadBack_of_masksFit ?_
  rw [hbehaviour, Behaviour.formula?, Option.all_some]
  exact hmasks

/-- The pins of the circuit of a file come back as they are. -/
theorem restored_of_read (h : read content = .ok d) : d.restored = d := by
  obtain ⟨-, hinputs, houtputs⟩ := read_eq_ok_iff.1 h
  refine Circuit.restored_eq (fun pin hpin => ?_) fun pin hpin => ?_
  · obtain ⟨declaration, -, hmakes⟩ := exists_of_mem_right hinputs hpin
    obtain ⟨code, -, htype⟩ := makesInput_iff.1 hmakes
    exact InputPin.restored_eq htype
  · obtain ⟨declared, -, hmakes⟩ := exists_of_mem_right houtputs hpin
    obtain ⟨code, f, -, htype, -⟩ := makesOutput_iff.1 hmakes
    exact OutputPin.restored_eq htype

/-- The circuit of a file is safe. -/
theorem isSafe_of_read (h : read content = .ok d) : d.IsSafe := by
  have hformulas := hasFormulas_of_read h
  have hreadable := forall_isReadable_of_read h
  have htotal := isTotal_of_read h
  obtain ⟨entries, hentries⟩ := htotal.exists_entries
  constructor
  case check => exact check_of_isReadable hformulas hreadable
  case sound =>
    intro pin hpin
    obtain ⟨f, hbehaviour, hsound⟩ := isReadable_of_read h hpin
    exact ⟨f, congrArg Behaviour.formula? hbehaviour, Formula.isSound_iff.2 hsound⟩
  case value => exact fun a ha pin hpin => Option.isSome_iff_exists.1 (htotal a ha pin hpin)
  case length_inputs_le => exact d.length_inputs_le
  case length_outputs_le => exact d.length_outputs_le
  case compiled =>
    exact ⟨entries, _, hentries, Circuit.compile?_of_entries? hentries,
      Circuit.map_pack?_of_entries? hentries⟩
  case summary =>
    rw [Circuit.summary?, hentries]
    exact ⟨_, rfl⟩
  case truthTable =>
    rw [TruthTable.ofCircuit?, hentries]
    exact ⟨_, rfl⟩

/-- **Accepted files are safe and stable.**  The circuit of an accepted file is safe.  It can be
written, what is written is read back as the same circuit, and so it is written to the same text
again. -/
theorem isSafe_and_stable_of_read (h : read content = .ok d) :
    d.IsSafe ∧ ∃ text, write? d = some text ∧ (∃ again, read (encode text) = .ok again) ∧
      ∀ again, read (encode text) = .ok again →
        again.inputs.map (fun pin => (pin.position, pin.type)) =
            d.inputs.map (fun pin => (pin.position, pin.type)) ∧
          again.outputs.map (fun pin => (pin.position, pin.type, pin.behaviour.formula?)) =
            d.outputs.map (fun pin => (pin.position, pin.type, pin.behaviour.formula?)) ∧
          write? again = some text := by
  have hformulas := hasFormulas_of_read h
  have hwrite := write?_eq hformulas
  have hback := read_fileText hformulas (forall_masksReadBack_of_read h)
    (forall_isReadable_of_read h)
  rw [restored_of_read h] at hback
  refine ⟨isSafe_of_read h, fileText d, hwrite, ⟨d, hback⟩, fun again hagain => ?_⟩
  obtain rfl : d = again := Except.ok.inj (hback.symm.trans hagain)
  exact ⟨rfl, rfl, hwrite⟩

/-- A file with keywords in small letters, a comment and an empty line. -/
theorem isSafe_and_stable_of_read_comparison :
    read (fileOf comparison) = .ok comparator ∧ comparator.IsSafe ∧
      ∃ text, write? comparator = some text ∧ ∃ again, read (encode text) = .ok again ∧
        write? again = some text := by
  obtain ⟨hsafe, text, hwrite, ⟨again, hagain⟩, hstable⟩ :=
    isSafe_and_stable_of_read read_comparison
  exact ⟨read_comparison, hsafe, text, hwrite, again, hagain, (hstable again hagain).2.2⟩

end PinFile

end VoxelLogic
