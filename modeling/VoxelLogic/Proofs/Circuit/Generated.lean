import VoxelLogic.Proofs.Circuit.Drawn
import VoxelLogic.Proofs.PinFile.Stable
import VoxelLogic.Proofs.Record.Normal

/-!
# Random circuits are well formed

A random circuit has its pins on the first positions of the catalog, in their order, and its outputs
are drawn one after the other.  So it comes back from its own pin file, its record keeps its table
as it is, and with fewer outputs the first of its outputs are drawn, from any source of draws.

* `Circuit.IsDrawn`, `isDrawn_of_draw?`: the pins and the formulas of a random circuit.
* `exists_read_write?_of_draw?`: its pin file.
* `exists_ofTable_of_draw?`: its record.
* `drawOutputs_take`, `exists_draw?_of_le`: random circuits with fewer outputs.
* `makesDrawn_draw?`: all of this, for the generator of a seed and for all other sources.
-/

namespace VoxelLogic.Circuit

open Position PinFile

/-- A circuit with pins of power on the first positions of the catalog and a drawn formula for each
output. -/
structure IsDrawn (inputs outputs : Nat) (c : Circuit) : Prop where
  inputs_eq : c.inputs = (Position.all.take inputs).map InputPin.ofPower
  outputs_eq : c.outputs.map (fun pin => (pin.position, pin.type)) =
    (Position.all.take outputs).map fun p => (p, .power)
  formula : ∀ pin ∈ c.outputs, ∃ f, pin.behaviour.formula? = some f ∧ f.IsDrawn inputs

variable {σ : Type} {draws : Draws σ} {inputs outputs fewer : Nat} {s : σ} {c : Circuit}

/-! ## Pins -/

theorem firstSites_eq_take (h : inputs ≤ siteCount) :
    firstSites inputs = Position.all.take inputs := by
  rw [firstSites, List.take_take, Nat.min_eq_left h]

theorem take_firstSites (h : fewer ≤ outputs) :
    (firstSites outputs).take fewer = firstSites fewer := by
  rw [firstSites, List.take_take, Nat.min_eq_left h, firstSites]

theorem sorted_firstSites (n : Nat) : sorted (firstSites n) = firstSites n :=
  sorted_eq_self (pairwise_all.sublist ((List.take_sublist _ _).trans (List.take_sublist _ _)))

theorem inputPositions_of_draw? (h : draw? draws inputs outputs s = some c) :
    c.inputPositions = firstSites inputs := by
  rw [inputPositions, (draw?_eq_some_iff.1 h).2.1, List.map_map]
  exact List.map_id _

theorem outputPositions_of_draw? (h : draw? draws inputs outputs s = some c) :
    c.outputPositions = firstSites outputs := by
  rw [outputPositions, (draw?_eq_some_iff.1 h).2.2, position_drawOutputs]

theorem isDrawn_of_draw? (h : draw? draws inputs outputs s = some c) :
    c.IsDrawn inputs outputs := by
  obtain ⟨⟨hinputsLe, houtputsLe⟩, hinputs, -⟩ := draw?_eq_some_iff.1 h
  refine ⟨?_, ?_, fun pin hpin => ?_⟩
  · rw [hinputs, firstSites_eq_take hinputsLe]
  · rw [← firstSites_eq_take houtputsLe, ← outputPositions_of_draw? h, outputPositions,
      List.map_map]
    refine List.map_congr_left fun pin hpin => ?_
    rw [(exists_isDrawn_of_draw? h hpin).1, Function.comp_apply]
  · obtain ⟨-, f, hbehaviour, hf⟩ := exists_isDrawn_of_draw? h hpin
    exact ⟨f, congrArg Behaviour.formula? hbehaviour, hf⟩

/-! ## Files -/

theorem restored_of_draw? (h : draw? draws inputs outputs s = some c) : c.restored = c := by
  have hpower : PinType.power = .ofCode 0 := rfl
  refine restored_eq (fun pin hpin => ?_) fun pin hpin => ?_
  · rw [(draw?_eq_some_iff.1 h).2.1] at hpin
    obtain ⟨p, -, rfl⟩ := List.mem_map.1 hpin
    exact InputPin.restored_eq hpower
  · exact OutputPin.restored_eq ((exists_isDrawn_of_draw? h hpin).1.trans hpower)

/-- The pin file of a random circuit is read back as the circuit. -/
theorem exists_read_write?_of_draw? (h : draw? draws inputs outputs s = some c) :
    ∃ text, write? c = some text ∧ read (Text.encode text) = .ok c := by
  have hformulas : c.HasFormulas := by
    intro pin hpin
    obtain ⟨-, f, hbehaviour, -⟩ := exists_isDrawn_of_draw? h hpin
    rw [hbehaviour]
    rfl
  have hmasks : ∀ pin ∈ c.outputs, pin.MasksReadBack :=
    fun pin hpin => OutputPin.masksReadBack_of_masksFit (masksFit_of_draw? h pin hpin)
  have hreadable : ∀ pin ∈ c.outputs, pin.isReadable c.inputs.length = true := by
    intro pin hpin
    obtain ⟨-, f, hbehaviour, hf⟩ := exists_isDrawn_of_draw? h hpin
    rw [OutputPin.isReadable, hbehaviour, length_inputs_of_draw? h]
    exact hf.isReadable
  have hread := read_fileText hformulas hmasks hreadable
  rw [restored_of_draw? h] at hread
  exact ⟨fileText c, write?_eq hformulas, hread⟩

/-- The record of a random circuit has its table as the only group of rows. -/
theorem exists_ofTable_of_draw? (h : draw? draws inputs outputs s = some c) :
    ∃ table r, c.compile? = some table ∧ Record.ofTable c table = .ok r ∧ r.groups = [table] := by
  obtain ⟨table, htable⟩ := (completes_of_draw? h).compile?
  have hcheck := checkTable_of_compile? htable
  have hinputs : sorted c.inputPositions = c.inputPositions := by
    rw [inputPositions_of_draw? h, sorted_firstSites]
  have houtputs : sorted c.outputPositions = c.outputPositions := by
    rw [outputPositions_of_draw? h, sorted_firstSites]
  refine ⟨table, Record.stored c table, htable, Record.ofTable_eq_ok_iff.2 ⟨hcheck, rfl⟩, ?_⟩
  rw [Record.stored, Record.rowsOf_catalogOrder hinputs houtputs hcheck,
    map_clearSentinel_of_compile? htable]

/-! ## Fewer outputs -/

/-- For the first of some positions the first outputs are drawn, because no output depends on the
draws for those after it. -/
theorem drawOutputs_take (ps : List Position) (n : Nat) :
    drawOutputs draws inputs (ps.take n) s = (drawOutputs draws inputs ps s).take n := by
  induction ps generalizing n s with
  | nil => rw [List.take_nil, drawOutputs, List.take_nil]
  | cons p ps ih =>
    cases n with
    | zero => rfl
    | succ n => rw [List.take_succ_cons, drawOutputs, drawOutputs, List.take_succ_cons, ih]

/-- With fewer outputs the inputs and the first outputs of a random circuit are drawn. -/
theorem exists_draw?_of_le (h : draw? draws inputs outputs s = some c) (hle : fewer ≤ outputs) :
    ∃ d, draw? draws inputs fewer s = some d ∧ d.inputs = c.inputs ∧
      d.outputs = c.outputs.take fewer := by
  obtain ⟨⟨hinputsLe, houtputsLe⟩, hinputs, houtputs⟩ := draw?_eq_some_iff.1 h
  obtain ⟨d, hd⟩ : ∃ d, draw? draws inputs fewer s = some d :=
    exists_draw?_iff.2 ⟨hinputsLe, hle.trans houtputsLe⟩
  obtain ⟨-, hdinputs, hdoutputs⟩ := draw?_eq_some_iff.1 hd
  refine ⟨d, hd, hdinputs.trans hinputs.symm, ?_⟩
  rw [hdoutputs, houtputs, ← drawOutputs_take, take_firstSites hle]

end VoxelLogic.Circuit

namespace VoxelLogic

open Circuit PinFile

/-- With a number of outputs a circuit is made that is drawn and passes its check, that comes back
from its own pin file, whose record has its table as the only group of rows, and that begins with
the outputs of the circuits that are made with fewer outputs. -/
def MakesDrawn (inputs outputs : Nat) (make? : Nat → Option Circuit) : Prop :=
  ∃ c, make? outputs = some c ∧ c.IsDrawn inputs outputs ∧ c.check = .ok () ∧
    (∃ text, write? c = some text ∧ read (Text.encode text) = .ok c) ∧
    (∃ table r, c.compile? = some table ∧ Record.ofTable c table = .ok r ∧ r.groups = [table]) ∧
    ∀ fewer ≤ outputs, ∃ d, make? fewer = some d ∧ d.inputs = c.inputs ∧
      d.outputs = c.outputs.take fewer

/-- **Random circuits are well formed.**  With up to 27 inputs and up to 27 outputs, whatever the
seed of the generator is, and whatever else is drawn from, there is a random circuit, and it is well
formed, can be written to both kinds of files, and extends the random circuits with fewer
outputs. -/
theorem makesDrawn_draw? (inputs outputs : Nat) (hinputs : inputs ≤ 27) (houtputs : outputs ≤ 27) :
    (∀ seed, MakesDrawn inputs outputs fun n => random? inputs n seed) ∧
    ∀ {σ : Type} (draws : Draws σ) (s : σ),
      MakesDrawn inputs outputs fun n => draw? draws inputs n s := by
  have hall {σ : Type} (draws : Draws σ) (s : σ) :
      MakesDrawn inputs outputs fun n => draw? draws inputs n s := by
    obtain ⟨c, hc⟩ : ∃ c, draw? draws inputs outputs s = some c :=
      exists_draw?_iff.2 ⟨hinputs, houtputs⟩
    exact ⟨c, hc, isDrawn_of_draw? hc, check_of_draw? hc, exists_read_write?_of_draw? hc,
      exists_ofTable_of_draw? hc, fun fewer hle => exists_draw?_of_le hc hle⟩
  exact ⟨fun seed => hall Generator.draws (Generator.ofSeed seed), hall⟩

/-- A source that never takes an input by itself, and whose numbers are all zero. -/
def idleDraws : Draws Unit where
  flip s := (false, s)
  coin s := (false, s)
  below _ s := (0, s)
  below_lt h _ := h

/-- The circuit of a seed, and one whose gates have the first input because they would have no
argument otherwise. -/
theorem makesDrawn_draw?_idle :
    3 ≤ 27 ∧ 2 ≤ 27 ∧ (MakesDrawn 3 2 fun n => random? 3 n 42) ∧
      (random? 3 2 42).map (fun c => c.outputs.map fun pin => pin.behaviour.formula?) =
        some [some (.gate .and [.input 0, .not (.input 1)]),
          some (.gate .xor [.input 0, .input 1])] ∧
      (MakesDrawn 3 2 fun n => draw? idleDraws 3 n ()) ∧
      (draw? idleDraws 3 2 ()).map (fun c => c.outputs.map fun pin => pin.behaviour.formula?) =
        some [some (.gate .and [.input 0]), some (.gate .and [.input 0])] := by
  obtain ⟨hseed, hsource⟩ := makesDrawn_draw? 3 2 (by decide) (by decide)
  exact ⟨by decide, by decide, hseed 42, rfl, hsource idleDraws (), rfl⟩

end VoxelLogic
