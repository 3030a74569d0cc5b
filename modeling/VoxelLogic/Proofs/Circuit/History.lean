import VoxelLogic.Circuit.Adder
import VoxelLogic.Circuit.Random
import VoxelLogic.PinFile.Read
import VoxelLogic.Proofs.Circuit.Compiled
import VoxelLogic.Proofs.Circuit.Repeats
import Mathlib.Data.List.Forall2

/-!
# Histories of a circuit

A circuit is built by changes that replace its inputs, its outputs or both, and that may fail.
Nothing is assumed of what they are given: pins come as their parts, files as bytes and records as
they are.  A change that fails leaves the circuit as it was.

* `Listing`, `Listing.IsValid`: the parts of the pins of a circuit, and which parts make pins
  (`exists_listing_iff`).
* `Change`, `Circuit.after`, `Circuit.run`: changes and histories of them.
* `after_setInputs`, `after_setOutputs`: what is left of a circuit when one side is set.
* `inputs_after`, `outputs_after`, `listing_run`: a step, and what a whole history leaves.
* `Circuit.HasRoom`: the table of a circuit fits the words that it is counted and stored in.
* `reachable_circuits`: the circuits that histories lead to.
-/

namespace VoxelLogic

/-! ## Parts of pins -/

/-- The parts of the pins of a circuit. -/
@[ext]
structure Listing where
  inputs : List (Position × PinType)
  outputs : List (Position × PinType × Behaviour)

/-- The positions of some pins are distinct, and those that carry state have the code of power. -/
structure IsAllowed (pins : List (Position × PinType)) : Prop where
  nodup : (pins.map Prod.fst).Nodup
  code_eq_zero : ∀ pin ∈ pins, pin.1.isState = true → pin.2.code = 0

instance (pins : List (Position × PinType)) : Decidable (IsAllowed pins) :=
  decidable_of_iff ((pins.map Prod.fst).Nodup ∧
      ∀ pin ∈ pins, pin.1.isState = true → pin.2.code = 0)
    ⟨fun h => ⟨h.1, h.2⟩, fun h => ⟨h.nodup, h.code_eq_zero⟩⟩

/-- The parts of pins that a circuit can have. -/
structure Listing.IsValid (l : Listing) : Prop where
  inputs : IsAllowed l.inputs
  outputs : IsAllowed (l.outputs.map fun pin => (pin.1, pin.2.1))

namespace Circuit

open Record

/-- The parts of the pins of a circuit. -/
def listing (c : Circuit) : Listing := ⟨c.inputs.map inputParts, c.outputs.map outputParts⟩

/-- The pins of a circuit are allowed. -/
theorem isValid_listing (c : Circuit) : c.listing.IsValid where
  inputs := by
    constructor
    · rw [listing, List.map_map]
      exact c.inputs_nodup
    · exact List.forall_mem_map.2 fun pin _ => Position.takes_iff.1 pin.takes
  outputs := by
    rw [listing, List.map_map]
    constructor
    · rw [List.map_map]
      exact c.outputs_nodup
    · exact List.forall_mem_map.2 fun pin _ => Position.takes_iff.1 pin.takes

/-! ## Making pins -/

/-- The input with some parts. -/
def makeInput? (parts : Position × PinType) : Option InputPin :=
  (InputPin.make parts.1 parts.2).toOption

/-- The output with some parts. -/
def makeOutput? (parts : Position × PinType × Behaviour) : Option OutputPin :=
  (OutputPin.make parts.1 parts.2.1 parts.2.2).toOption

theorem makeInput?_eq_some_iff {parts : Position × PinType} {pin : InputPin} :
    makeInput? parts = some pin ↔ parts = inputParts pin := by
  rw [makeInput?, toOption_eq_some_iff, InputPin.make_eq_ok_iff, inputParts, Prod.ext_iff]
  exact and_congr eq_comm eq_comm

theorem makeOutput?_eq_some_iff {parts : Position × PinType × Behaviour} {pin : OutputPin} :
    makeOutput? parts = some pin ↔ parts = outputParts pin := by
  rw [makeOutput?, toOption_eq_some_iff, OutputPin.make_eq_ok_iff, outputParts, Prod.ext_iff,
    Prod.ext_iff]
  exact and_congr eq_comm (and_congr eq_comm eq_comm)

theorem mapM_makeInput?_eq_some_iff {parts : List (Position × PinType)} {pins : List InputPin} :
    parts.mapM makeInput? = some pins ↔ parts = pins.map inputParts := by
  rw [mapM_eq_some_iff, ← List.forall₂_eq_eq_eq, List.forall₂_map_left_iff,
    List.forall₂_map_right_iff, ← List.forall₂_eq_eq_eq, List.forall₂_map_right_iff]
  simp only [makeInput?_eq_some_iff]

theorem mapM_makeOutput?_eq_some_iff {parts : List (Position × PinType × Behaviour)}
    {pins : List OutputPin} :
    parts.mapM makeOutput? = some pins ↔ parts = pins.map outputParts := by
  rw [mapM_eq_some_iff, ← List.forall₂_eq_eq_eq, List.forall₂_map_left_iff,
    List.forall₂_map_right_iff, ← List.forall₂_eq_eq_eq, List.forall₂_map_right_iff]
  simp only [makeOutput?_eq_some_iff]

/-- A circuit can have any pins that are allowed. -/
theorem exists_listing_iff {l : Listing} : (∃ c : Circuit, c.listing = l) ↔ l.IsValid := by
  constructor
  · rintro ⟨c, rfl⟩
    exact c.isValid_listing
  · rintro ⟨hinputs, houtputs⟩
    obtain ⟨inputs, outputs⟩ := l
    obtain ⟨ins, rfl⟩ := exists_inputs fun part hpart =>
      Position.takes_iff.2 (hinputs.code_eq_zero part hpart)
    obtain ⟨outs, rfl⟩ := exists_outputs fun part hpart =>
      Position.takes_iff.2 (List.forall_mem_map.1 houtputs.code_eq_zero part hpart)
    have hin := hinputs.nodup
    have hout := houtputs.nodup
    rw [List.map_map] at hin
    rw [List.map_map, List.map_map] at hout
    exact ⟨⟨ins, outs, hin, hout⟩, rfl⟩

end Circuit

/-! ## Changes -/

/-- A way to change a circuit: to set its inputs or its outputs, or to replace it by the circuit of
a file or of a record, by the full adder or by a random circuit. -/
inductive Change where
  | setInputs (parts : List (Position × PinType))
  | setOutputs (parts : List (Position × PinType × Behaviour))
  | readFile (content : List UInt8)
  | loadRecord (record : Record)
  | fullAdder
  | random (inputs outputs : Nat) (seed : UInt64)

/-- What a change makes of a circuit, if it succeeds. -/
def Change.perform? (c : Circuit) : Change → Option Circuit
  | setInputs parts =>
    (parts.mapM Circuit.makeInput?).bind fun pins => (c.withInputs pins).toOption
  | setOutputs parts =>
    (parts.mapM Circuit.makeOutput?).bind fun pins => (c.withOutputs pins).toOption
  | readFile content => (PinFile.read content).toOption
  | loadRecord record => record.circuit.toOption
  | fullAdder => some Circuit.fullAdder
  | random inputs outputs seed => Circuit.random? inputs outputs seed

/-- The inputs that a change sets, if it sets inputs and succeeds. -/
def Change.inputs? : Change → Option (List (Position × PinType))
  | setInputs parts => if IsAllowed parts then some parts else none
  | setOutputs _ => none
  | change => (change.perform? Circuit.empty).map fun d => d.listing.inputs

/-- The outputs that a change sets, if it sets outputs and succeeds. -/
def Change.outputs? : Change → Option (List (Position × PinType × Behaviour))
  | setInputs _ => none
  | setOutputs parts =>
    if IsAllowed (parts.map fun pin => (pin.1, pin.2.1)) then some parts else none
  | change => (change.perform? Circuit.empty).map fun d => d.listing.outputs

namespace Circuit

open Record

/-- The circuit after a change, which is the circuit before it if the change fails. -/
def after (c : Circuit) (change : Change) : Circuit := (change.perform? c).getD c

/-- The circuit after some changes, from the circuit without pins on. -/
def run (history : List Change) : Circuit := history.foldl after empty

variable {c d : Circuit}

theorem perform?_setInputs_eq_some_iff {parts : List (Position × PinType)} :
    (Change.setInputs parts).perform? c = some d ↔ d.listing = ⟨parts, c.listing.outputs⟩ := by
  simp only [Change.perform?, Option.bind_eq_some_iff, mapM_makeInput?_eq_some_iff,
    toOption_eq_some_iff, withInputs_eq_ok_iff, listing, Listing.mk.injEq]
  constructor
  · rintro ⟨pins, rfl, rfl, houtputs⟩
    exact ⟨rfl, by rw [houtputs]⟩
  · rintro ⟨rfl, houtputs⟩
    exact ⟨d.inputs, rfl, rfl, List.map_injective_iff.2 outputParts_injective houtputs⟩

theorem perform?_setOutputs_eq_some_iff {parts : List (Position × PinType × Behaviour)} :
    (Change.setOutputs parts).perform? c = some d ↔ d.listing = ⟨c.listing.inputs, parts⟩ := by
  simp only [Change.perform?, Option.bind_eq_some_iff, mapM_makeOutput?_eq_some_iff,
    toOption_eq_some_iff, withOutputs_eq_ok_iff, listing, Listing.mk.injEq]
  constructor
  · rintro ⟨pins, rfl, rfl, hinputs⟩
    exact ⟨by rw [hinputs], rfl⟩
  · rintro ⟨hinputs, rfl⟩
    exact ⟨d.outputs, rfl, rfl, List.map_injective_iff.2 inputParts_injective hinputs⟩

/-- A change to pins with given parts is made if a circuit can have them. -/
theorem after_of_perform?_iff {change : Change} {l : Listing}
    (h : ∀ d, change.perform? c = some d ↔ d.listing = l) :
    (l.IsValid ∧ (c.after change).listing = l) ∨ (¬ l.IsValid ∧ c.after change = c) := by
  by_cases hvalid : l.IsValid
  · obtain ⟨d, hd⟩ := exists_listing_iff.2 hvalid
    rw [after, (h d).2 hd]
    exact .inl ⟨hvalid, hd⟩
  · have hnone : change.perform? c = none := by
      rw [Option.eq_none_iff_forall_ne_some]
      intro d hd
      exact hvalid (exists_listing_iff.1 ⟨d, (h d).1 hd⟩)
    rw [after, hnone]
    exact .inr ⟨hvalid, rfl⟩

/-- Inputs that are allowed replace the old ones, and others change nothing. -/
theorem after_setInputs (c : Circuit) (parts : List (Position × PinType)) :
    (IsAllowed parts ∧ (c.after (.setInputs parts)).listing = ⟨parts, c.listing.outputs⟩) ∨
      (¬ IsAllowed parts ∧ c.after (.setInputs parts) = c) := by
  rcases after_of_perform?_iff fun d => perform?_setInputs_eq_some_iff (c := c) (d := d) with
    ⟨hvalid, hlisting⟩ | ⟨hnot, hsame⟩
  · exact .inl ⟨hvalid.inputs, hlisting⟩
  · exact .inr ⟨fun h => hnot ⟨h, c.isValid_listing.outputs⟩, hsame⟩

/-- Outputs that are allowed replace the old ones, and others change nothing. -/
theorem after_setOutputs (c : Circuit) (parts : List (Position × PinType × Behaviour)) :
    (IsAllowed (parts.map fun pin => (pin.1, pin.2.1)) ∧
        (c.after (.setOutputs parts)).listing = ⟨c.listing.inputs, parts⟩) ∨
      (¬ IsAllowed (parts.map fun pin => (pin.1, pin.2.1)) ∧
        c.after (.setOutputs parts) = c) := by
  rcases after_of_perform?_iff fun d => perform?_setOutputs_eq_some_iff (c := c) (d := d) with
    ⟨hvalid, hlisting⟩ | ⟨hnot, hsame⟩
  · exact .inl ⟨hvalid.outputs, hlisting⟩
  · exact .inr ⟨fun h => hnot ⟨c.isValid_listing.inputs, h⟩, hsame⟩

/-- A change that does not look at the circuit replaces each side of it. -/
theorem side_after {α : Type} (side : Circuit → α) {change : Change}
    (h : change.perform? c = change.perform? empty) :
    side (c.after change) = ((change.perform? empty).map side).getD (side c) := by
  rw [after, h, Option.getD_map]

/-- A change sets its inputs, whatever the circuit is, or leaves those of the circuit. -/
theorem inputs_after (c : Circuit) (change : Change) :
    (c.after change).listing.inputs = change.inputs?.getD c.listing.inputs := by
  cases change with
  | setInputs parts =>
    rcases after_setInputs c parts with ⟨hallowed, h⟩ | ⟨hnot, h⟩
    · rw [h, Change.inputs?, if_pos hallowed, Option.getD_some]
    · rw [h, Change.inputs?, if_neg hnot, Option.getD_none]
  | setOutputs parts =>
    rcases after_setOutputs c parts with ⟨-, h⟩ | ⟨-, h⟩
    · rw [h, Change.inputs?, Option.getD_none]
    · rw [h, Change.inputs?, Option.getD_none]
  | readFile => exact side_after (fun d => d.listing.inputs) rfl
  | loadRecord => exact side_after (fun d => d.listing.inputs) rfl
  | fullAdder => exact side_after (fun d => d.listing.inputs) rfl
  | random => exact side_after (fun d => d.listing.inputs) rfl

/-- A change sets its outputs, whatever the circuit is, or leaves those of the circuit. -/
theorem outputs_after (c : Circuit) (change : Change) :
    (c.after change).listing.outputs = change.outputs?.getD c.listing.outputs := by
  cases change with
  | setInputs parts =>
    rcases after_setInputs c parts with ⟨-, h⟩ | ⟨-, h⟩
    · rw [h, Change.outputs?, Option.getD_none]
    · rw [h, Change.outputs?, Option.getD_none]
  | setOutputs parts =>
    rcases after_setOutputs c parts with ⟨hallowed, h⟩ | ⟨hnot, h⟩
    · rw [h, Change.outputs?, if_pos hallowed, Option.getD_some]
    · rw [h, Change.outputs?, if_neg hnot, Option.getD_none]
  | readFile => exact side_after (fun d => d.listing.outputs) rfl
  | loadRecord => exact side_after (fun d => d.listing.outputs) rfl
  | fullAdder => exact side_after (fun d => d.listing.outputs) rfl
  | random => exact side_after (fun d => d.listing.outputs) rfl

/-- What every change of a history sets or leaves is in the end what the last change set that set
anything. -/
theorem foldl_after_eq {α : Type} (side : Circuit → α) {sets? : Change → Option α}
    (h : ∀ c change, side (c.after change) = (sets? change).getD (side c)) (c : Circuit)
    (history : List Change) :
    side (history.foldl after c) = (history.filterMap sets?).getLast?.getD (side c) := by
  induction history generalizing c with
  | nil => rfl
  | cons change history ih =>
    rw [List.foldl_cons, ih, h]
    cases hsets : sets? change with
    | none => rw [List.filterMap_cons_none hsets, Option.getD_none]
    | some parts =>
      rw [List.filterMap_cons_some hsets, List.getLast?_cons, Option.getD_some, Option.getD_some]

/-- A circuit has the inputs and the outputs that were last set. -/
theorem listing_run (history : List Change) :
    (run history).listing =
      ⟨(history.filterMap Change.inputs?).getLast?.getD [],
        (history.filterMap Change.outputs?).getLast?.getD []⟩ := by
  have hinputs := foldl_after_eq (fun d => d.listing.inputs) inputs_after empty history
  have houtputs := foldl_after_eq (fun d => d.listing.outputs) outputs_after empty history
  exact Listing.ext hinputs houtputs

/-- Histories lead to all parts of pins that a circuit can have, and to no others. -/
theorem exists_run_iff {l : Listing} :
    (∃ history, (run history).listing = l) ↔ l.IsValid := by
  constructor
  · rintro ⟨history, rfl⟩
    exact (run history).isValid_listing
  · intro h
    refine ⟨[.setInputs l.inputs, .setOutputs l.outputs], ?_⟩
    have hinputs := (after_setInputs empty l.inputs).resolve_right fun hnot => hnot.1 h.inputs
    have houtputs := (after_setOutputs (empty.after (.setInputs l.inputs)) l.outputs).resolve_right
      fun hnot => hnot.1 h.outputs
    rw [hinputs.2] at houtputs
    exact houtputs.2

/-- A change that fails could as well be left out of a history. -/
theorem run_append_of_perform?_eq_none {before more : List Change} {change : Change}
    (h : change.perform? (run before) = none) :
    run (before ++ change :: more) = run (before ++ more) := by
  have hafter : (run before).after change = run before := by
    rw [after, h, Option.getD_none]
  calc run (before ++ change :: more)
      = more.foldl after ((run before).after change) := by
        rw [run, List.foldl_append, List.foldl_cons, run]
    _ = more.foldl after (run before) := by rw [hafter]
    _ = run (before ++ more) := by rw [run, run, List.foldl_append]

/-! ## Room for the table -/

/-- The table of a circuit fits the words that it is counted and stored in. -/
structure HasRoom (c : Circuit) : Prop where
  length_inputs_le : c.inputs.length ≤ 35
  length_outputs_le : c.outputs.length ≤ 35
  rowCount_eq : c.rowCount = 2 ^ c.inputs.length
  rowCount_lt : c.rowCount < 2 ^ 64
  packed : ∀ a values, c.values? a = some values →
    ∃ row, PackedRow.pack? values = some row ∧ row.toNat < 2 ^ 36
  compiled : ∀ table, c.compile? = some table → ∀ row ∈ table, row.toNat < 2 ^ 36

/-- A row of as many values as a circuit has outputs leaves most of a word free. -/
theorem toNat_pack_lt (c : Circuit) {values : List Bool}
    (h : values.length = c.outputs.length) : (PackedRow.pack values).toNat < 2 ^ 36 := by
  have hle : values.length ≤ Position.count := h ▸ c.length_outputs_le
  have hlt : values.length < 64 := h ▸ c.length_outputs_lt
  exact PackedRow.fits_iff_toNat_lt.1 (PackedRow.fits_pack hlt hle)

/-- There is room for the table of any circuit, since a catalog of 35 positions leaves both a row
number and a row in a word of 64 bits. -/
theorem hasRoom (c : Circuit) : c.HasRoom := by
  constructor
  case length_inputs_le => exact c.length_inputs_le
  case length_outputs_le => exact c.length_outputs_le
  case rowCount_eq => rfl
  case rowCount_lt =>
    have hlt : c.inputs.length < 64 := Nat.lt_of_le_of_lt c.length_inputs_le (by decide)
    exact Nat.pow_lt_pow_right (by decide) hlt
  case packed =>
    intro a values hvalues
    have hlength := length_of_values? hvalues
    have hlt : values.length < 64 := hlength ▸ c.length_outputs_lt
    exact ⟨PackedRow.pack values, by rw [PackedRow.pack?, if_pos hlt], c.toNat_pack_lt hlength⟩
  case compiled =>
    intro table htable row hrow
    obtain ⟨values, hlength, rfl⟩ := exists_pack_of_mem_compile? htable hrow
    exact c.toNat_pack_lt hlength

end Circuit

/-! ## Reachable circuits -/

/-- **The circuits that histories lead to.**  They are those whose inputs and whose outputs are at
distinct positions, with the code of power on every state slot, and there is room for their tables.
Each side of a circuit is as it was last set, and a change that fails could as well be left out.
Setting one side either replaces that side as a whole or nothing at all; it fails exactly if a
position repeats, and reports the first repeat. -/
theorem reachable_circuits :
    (∀ l : Listing, (∃ history, (Circuit.run history).listing = l) ↔ l.IsValid) ∧
    (∀ history, (Circuit.run history).HasRoom) ∧
    (∀ history, (Circuit.run history).listing =
      ⟨(history.filterMap Change.inputs?).getLast?.getD [],
        (history.filterMap Change.outputs?).getLast?.getD []⟩) ∧
    (∀ before change more, Change.perform? (Circuit.run before) change = none →
      Circuit.run (before ++ change :: more) = Circuit.run (before ++ more)) ∧
    (∀ (c : Circuit) parts,
      (IsAllowed parts ∧ (c.after (.setInputs parts)).listing = ⟨parts, c.listing.outputs⟩) ∨
        (¬ IsAllowed parts ∧ c.after (.setInputs parts) = c)) ∧
    (∀ (c : Circuit) (parts : List (Position × PinType × Behaviour)),
      (IsAllowed (parts.map fun pin => (pin.1, pin.2.1)) ∧
          (c.after (.setOutputs parts)).listing = ⟨c.listing.inputs, parts⟩) ∨
        (¬ IsAllowed (parts.map fun pin => (pin.1, pin.2.1)) ∧
          c.after (.setOutputs parts) = c)) ∧
    (∀ (c : Circuit) pins, ReplacesSide (pins.map InputPin.position)
      (fun d => d.inputs = pins ∧ d.outputs = c.outputs) (c.withInputs pins)) ∧
    ∀ (c : Circuit) pins, ReplacesSide (pins.map OutputPin.position)
      (fun d => d.outputs = pins ∧ d.inputs = c.inputs) (c.withOutputs pins) :=
  ⟨fun _ => Circuit.exists_run_iff, fun history => (Circuit.run history).hasRoom,
    Circuit.listing_run, fun _ _ _ => Circuit.run_append_of_perform?_eq_none,
    Circuit.after_setInputs, Circuit.after_setOutputs, Circuit.replacesSide_withInputs,
    Circuit.replacesSide_withOutputs⟩

/-- The full adder keeps its inputs when it is asked to take a material on a state slot, and when it
is asked for three inputs of which the last is at the position of the first. -/
theorem reachable_circuits_fullAdder :
    Circuit.run [.fullAdder, .setInputs [(.slot 0, .other 9)], .setOutputs []] =
      Circuit.run [.fullAdder, .setOutputs []] ∧
    Circuit.fullAdder.withInputs
        [.ofPower (.slot 0), .ofPower (.slot 1), .ofPower (.slot 0)] =
      .error (.repeatedPosition (.slot 0) 2) := by
  obtain ⟨-, -, -, hfails, -, -, hinputs, -⟩ := reachable_circuits
  constructor
  · exact hfails [.fullAdder] (.setInputs [(.slot 0, .other 9)]) [.setOutputs []] rfl
  · refine ((hinputs Circuit.fullAdder _).error_iff _).2 ⟨2, .slot 0, ⟨rfl, by decide, ?_⟩, rfl⟩
    decide

end VoxelLogic
