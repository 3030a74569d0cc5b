import VoxelLogic.Circuit.Summary
import VoxelLogic.Proofs.Record.CanonicalForm
import VoxelLogic.Proofs.TruthTable.Inverse

/-!
# What a summary counts

A summary counts, for each output, the rows in which it is set, and takes an output for a constant
if that is no row or every row.  Counted by position instead, it is the number of assignments at
which the output at a position is true, and this number does not depend on the order of the pins:
the assignments of two circuits with the same inputs correspond one to one.

* `Circuit.onesAt`: at how many assignments the output at a position is set.
* `Circuit.summary?_of_entries?`: a summary lists these numbers, and so does a compiled table
  (`Circuit.countP_of_compile?`).
* `OutputPin.IsConstant`: an output has one value at all assignments
  (`Circuit.constantOutputs_of_summary?`).
* `Circuit.SameModule.counts_eq`: two circuits of one module have the same counts.
* `summary?_agrees`: the summary of a circuit, its table, its outputs and its record.
-/

namespace VoxelLogic

/-- An output has the same value at all assignments. -/
def OutputPin.IsConstant (pin : OutputPin) (inputs : Nat) : Prop :=
  ∃ value, ∀ a : Assignment, a.length = inputs → pin.value? a = some value

theorem OutputPin.isConstant_iff {pin : OutputPin} {inputs : Nat} :
    pin.IsConstant inputs ↔
      ((Assignment.all inputs).all fun a => pin.value? a == some false) = true ∨
        ((Assignment.all inputs).all fun a => pin.value? a == some true) = true := by
  simp only [List.all_eq_true, beq_iff_eq, Assignment.mem_all_iff]
  exact Bool.exists_bool

instance (pin : OutputPin) (inputs : Nat) : Decidable (pin.IsConstant inputs) :=
  decidable_of_iff _ OutputPin.isConstant_iff.symm

namespace Circuit

variable {c d : Circuit} {table : PackedTable} {entries : List Entry} {s t : Summary}

/-! ## Counting by position -/

/-- At how many assignments the output at a position is set. -/
def onesAt (c : Circuit) (p : Position) : Nat :=
  (Assignment.all c.inputs.length).countP fun a => c.outputAt? a p == some true

/-- An entry of a circuit has the output of each position at its place. -/
theorem getElem?_outputs_of_mem_entries? (h : c.entries? = some entries) {e : Entry}
    (he : e ∈ entries) {k : Nat} {p : Position} (hk : c.outputPositions[k]? = some p) :
    e.outputs[k]? = c.outputAt? e.assignment p := by
  have hget := congrArg (fun l => l[k]?) (map_outputAt?_of_values? (values?_of_mem_entries? h he))
  simp only [List.getElem?_map, hk, Option.map_some] at hget
  cases houtput : e.outputs[k]? with
  | none => simp [houtput] at hget
  | some value => simpa [houtput] using hget.symm

/-- The entries in which an output is set are as many as the assignments at which it is. -/
theorem countP_of_entries? (h : c.entries? = some entries) {k : Nat} {p : Position}
    (hk : c.outputPositions[k]? = some p) :
    (entries.countP fun e => e.outputs[k]?.getD false) = c.onesAt p := by
  rw [onesAt, ← map_assignment_of_entries? h, List.countP_map]
  refine List.countP_congr fun e he => ?_
  rw [getElem?_outputs_of_mem_entries? h he hk, Function.comp_apply]
  cases c.outputAt? e.assignment p with
  | none => simp
  | some value => simp

/-- The rows in which the bit of an output is set are as many as the assignments at which the output
is. -/
theorem countP_of_compile? (h : c.compile? = some table) {k : Nat} {p : Position}
    (hk : c.outputPositions[k]? = some p) :
    (table.countP fun row => row.getLsbD (k + 1)) = c.onesAt p := by
  obtain ⟨entries, hentries, rfl⟩ := Option.map_eq_some_iff.1 h
  rw [← countP_of_entries? hentries hk, List.countP_map]
  refine List.countP_congr fun e he => ?_
  have hlt : e.outputs.length < 64 := by
    rw [length_outputs_of_mem_entries? hentries he]
    exact c.length_outputs_lt
  have hbit : (PackedRow.pack e.outputs).getLsbD (k + 1) = e.outputs[k]?.getD false :=
    PackedRow.output_pack hlt k
  rw [Function.comp_apply, hbit]

/-- A summary lists the numbers of the output positions. -/
theorem summary?_of_entries? (h : c.entries? = some entries) :
    c.summary? =
      some ⟨c.inputPositions, c.outputPositions, c.rowCount, c.outputPositions.map c.onesAt⟩ := by
  have hones : ((List.range c.outputs.length).map fun k =>
      entries.countP fun e => e.outputs[k]?.getD false) = c.outputPositions.map c.onesAt := by
    apply List.ext_getElem
    · simp
    · intro k h₁ h₂
      have hk : k < c.outputPositions.length := by simpa using h₁
      rw [List.getElem_map, List.getElem_range, List.getElem_map,
        countP_of_entries? h (List.getElem?_eq_getElem hk)]
  rw [summary?, h, Option.map_some, hones]

/-- A circuit has a summary exactly if it is total. -/
theorem summary?_eq_some_iff :
    c.summary? = some s ↔ c.IsTotal ∧
      s = ⟨c.inputPositions, c.outputPositions, c.rowCount, c.outputPositions.map c.onesAt⟩ := by
  constructor
  · intro h
    obtain ⟨entries, hentries, -⟩ := Option.map_eq_some_iff.1 h
    rw [summary?_of_entries? hentries] at h
    exact ⟨isTotal_iff.2 ⟨_, compile?_of_entries? hentries⟩, (Option.some.inj h).symm⟩
  · rintro ⟨hc, rfl⟩
    obtain ⟨entries, hentries⟩ := hc.exists_entries
    exact summary?_of_entries? hentries

/-! ## Constant outputs -/

/-- An output of a total circuit is set at no assignment or at every one exactly if it has one value
at all of them. -/
theorem onesAt_eq_zero_or_eq_rowCount_iff (hc : c.IsTotal) {pin : OutputPin}
    (hpin : pin ∈ c.outputs) :
    c.onesAt pin.position = 0 ∨ c.onesAt pin.position = c.rowCount ↔
      pin.IsConstant c.inputs.length := by
  have hzero : c.onesAt pin.position = 0 ↔
      ((Assignment.all c.inputs.length).all fun a => pin.value? a == some false) = true := by
    simp only [onesAt, outputAt?_of_mem hpin, List.countP_eq_zero, List.all_eq_true]
    refine forall₂_congr fun a ha => ?_
    obtain ⟨value, hvalue⟩ :=
      Option.isSome_iff_exists.1 (hc a (Assignment.mem_all_iff.1 ha) pin hpin)
    rw [hvalue]
    cases value <;> decide
  have hall : c.onesAt pin.position = c.rowCount ↔
      ((Assignment.all c.inputs.length).all fun a => pin.value? a == some true) = true := by
    rw [rowCount, ← Assignment.length_all]
    simp only [onesAt, outputAt?_of_mem hpin, List.countP_eq_length, List.all_eq_true]
  rw [hzero, hall, OutputPin.isConstant_iff]

/-- The constant outputs of a summary are those that have one value at all assignments. -/
theorem constantOutputs_of_summary? (h : c.summary? = some s) :
    s.constantOutputs = c.outputs.countP fun pin => pin.IsConstant c.inputs.length := by
  obtain ⟨hc, rfl⟩ := summary?_eq_some_iff.1 h
  rw [Summary.constantOutputs, outputPositions, List.map_map, List.countP_map]
  refine List.countP_congr fun pin hpin => ?_
  rw [decide_eq_true_iff, ← onesAt_eq_zero_or_eq_rowCount_iff hc hpin]
  simp

/-- Without inputs every output of a total circuit is constant. -/
theorem isConstant_zero (hc : c.IsTotal) (hinputs : c.inputs.length = 0) {pin : OutputPin}
    (hpin : pin ∈ c.outputs) : pin.IsConstant c.inputs.length := by
  obtain ⟨value, hvalue⟩ := Option.isSome_iff_exists.1 (hc [] hinputs.symm pin hpin)
  refine ⟨value, fun a ha => ?_⟩
  rw [List.length_eq_zero_iff.1 (ha.trans hinputs), hvalue]

/-! ## Another order of the pins -/

/-- The assignment of `d` that gives every position the value which `a` gives it in `c`. -/
def translate (c d : Circuit) (a : Assignment) : Assignment :=
  d.assignmentOf fun p => (c.inputAt? a p).getD false

theorem translate_assignmentOf (h : c.inputPositions.Perm d.inputPositions)
    (v : Position → Bool) : translate c d (c.assignmentOf v) = d.assignmentOf v := by
  refine List.map_congr_left fun p hp => ?_
  rw [inputAt?_assignmentOf (h.mem_iff.2 hp), Option.getD_some]

/-- An assignment comes back from another order of the inputs. -/
theorem translate_translate (h : c.inputPositions.Perm d.inputPositions) {a : Assignment}
    (ha : a.length = c.inputs.length) : translate d c (translate c d a) = a := by
  obtain ⟨v, rfl⟩ := exists_assignmentOf ha
  rw [translate_assignmentOf h, translate_assignmentOf h.symm]

/-- **No assignment is lost or met twice**: those of one order of the inputs are those of
another. -/
theorem map_translate_perm (h : c.inputPositions.Perm d.inputPositions) :
    ((Assignment.all c.inputs.length).map (translate c d)).Perm
      (Assignment.all d.inputs.length) := by
  have hnodup : ((Assignment.all c.inputs.length).map (translate c d)).Nodup := by
    refine List.Nodup.map_on (fun a ha b hb hab => ?_) (Assignment.nodup_all _)
    rw [← translate_translate h (Assignment.mem_all_iff.1 ha), hab,
      translate_translate h (Assignment.mem_all_iff.1 hb)]
  refine (List.perm_ext_iff_of_nodup hnodup (Assignment.nodup_all _)).2 fun b => ?_
  rw [List.mem_map, Assignment.mem_all_iff]
  constructor
  · rintro ⟨a, -, rfl⟩
    exact d.length_assignmentOf _
  · intro hb
    exact ⟨translate d c b, Assignment.mem_all_iff.2 (c.length_assignmentOf _),
      translate_translate h.symm hb⟩

namespace SameModule

/-- An output is set at as many assignments in one circuit of a module as in another. -/
theorem onesAt_eq (h : c.SameModule d) {p : Position} (hp : p ∈ c.outputPositions) :
    d.onesAt p = c.onesAt p := by
  rw [onesAt, ← (map_translate_perm h.inputPositions_perm).countP_eq, List.countP_map, onesAt]
  refine List.countP_congr fun a ha => ?_
  obtain ⟨v, rfl⟩ := exists_assignmentOf (Assignment.mem_all_iff.1 ha)
  have hvalue : c.outputAt? (c.assignmentOf v) p = d.outputAt? (d.assignmentOf v) p :=
    h.values v p hp
  rw [Function.comp_apply, translate_assignmentOf h.inputPositions_perm, hvalue]

theorem rowCount_eq (h : c.SameModule d) : d.rowCount = c.rowCount := by
  rw [rowCount, rowCount, ← d.length_inputPositions, ← c.length_inputPositions,
    h.inputPositions_perm.length_eq]

/-- **The counts of a module** do not depend on the circuit that describes it. -/
theorem counts_eq (h : c.SameModule d) (hs : c.summary? = some s) (ht : d.summary? = some t) :
    (t.outputs.zip t.ones).Perm (s.outputs.zip s.ones) ∧
      t.constantOutputs = s.constantOutputs ∧ t.stateInputs = s.stateInputs ∧
      t.stateOutputs = s.stateOutputs := by
  obtain ⟨-, rfl⟩ := summary?_eq_some_iff.1 hs
  obtain ⟨-, rfl⟩ := summary?_eq_some_iff.1 ht
  have hpositions := h.outputPositions_perm.symm
  have hones : d.outputPositions.map d.onesAt = d.outputPositions.map c.onesAt :=
    List.map_congr_left fun p hp => h.onesAt_eq (hpositions.mem_iff.1 hp)
  refine ⟨?_, ?_, h.inputPositions_perm.symm.countP_eq _, hpositions.countP_eq _⟩
  · simp only [hones, ← List.map_prod_left_eq_zip]
    exact hpositions.map _
  · simp only [Summary.constantOutputs, hones, h.rowCount_eq]
    exact (hpositions.map c.onesAt).countP_eq _

end SameModule

end Circuit

/-- **Summaries agree** with the compiled table, with the outputs and with the record.  The number
of an output counts the rows of the table in which its bit is set.  The constant outputs are those
that have the same value at all assignments, which are all outputs if there are no inputs.  The
circuit of the record has the same number at every output position, and as many constant outputs,
state inputs and state outputs. -/
theorem summary?_agrees {c : Circuit} (hc : c.IsTotal) :
    ∃ s table r d t, c.summary? = some s ∧ c.compile? = some table ∧
      Record.ofTable c table = .ok r ∧ r.circuit = .ok d ∧ d.summary? = some t ∧
      s.ones.length = c.outputs.length ∧
      (∀ k < c.outputs.length,
        s.ones[k]? = some (table.countP fun row => row.getLsbD (k + 1))) ∧
      (s.constantOutputs = c.outputs.countP fun pin => pin.IsConstant c.inputs.length) ∧
      (c.inputs.length = 0 → s.constantOutputs = c.outputs.length) ∧
      (d.outputPositions.zip t.ones).Perm (c.outputPositions.zip s.ones) ∧
      t.constantOutputs = s.constantOutputs ∧ t.stateInputs = s.stateInputs ∧
      t.stateOutputs = s.stateOutputs := by
  obtain ⟨table, htable⟩ := Circuit.isTotal_iff.1 hc
  have hcheck := Circuit.checkTable_of_compile? htable
  obtain ⟨d, hd, -⟩ := Record.exists_circuit_stored hcheck
  have hs := Circuit.summary?_eq_some_iff.2 ⟨hc, rfl⟩
  have ht := Circuit.summary?_eq_some_iff.2 ⟨Record.isTotal_of_circuit hd, rfl⟩
  have hconstant := Circuit.constantOutputs_of_summary? hs
  refine ⟨_, table, _, d, _, hs, htable, Record.ofTable_eq_ok_iff.2 ⟨hcheck, rfl⟩, hd, ht, ?_, ?_,
    hconstant, fun hinputs => ?_, (Record.sameModule_stored htable hd).counts_eq hs ht⟩
  · rw [List.length_map, c.length_outputPositions]
  · intro k hk
    have hposition := List.getElem?_eq_getElem (c.length_outputPositions ▸ hk)
    rw [List.getElem?_map, hposition, Option.map_some, Circuit.countP_of_compile? htable hposition]
  · rw [hconstant]
    refine List.countP_eq_length.2 fun pin hpin => ?_
    exact decide_eq_true (Circuit.isConstant_zero hc hinputs hpin)

/-- A circuit with a constant output, whose pins stand in another order than in the catalog. -/
def steady : Circuit where
  inputs := [.ofPower (.slot (.last 7)), .ofPower (.site .middle .middle .left)]
  outputs := [⟨.slot (.last 7), .power, .formula (.gate .nand []), rfl⟩,
    ⟨.site .front .top .right, .other 4, .formula (.gate .and [.not (.input 1), .input 0]), rfl⟩,
    ⟨.site .front .down .right, .other 4, .lookUp #[9, 8, 4, 11] 2, rfl⟩]
  inputs_nodup := firstRepeat?_eq_none_iff.1 rfl
  outputs_nodup := firstRepeat?_eq_none_iff.1 rfl

/-- Its table, and the counts of the circuit that its record is read back as. -/
theorem summary?_agrees_steady :
    steady.IsTotal ∧
      (∃ s, steady.summary? = some s ∧ s.ones = [0, 1, 3] ∧ s.constantOutputs = 1) ∧
      ∃ r d t, Record.ofTable steady [8, 8, 4, 8] = .ok r ∧ r.circuit = .ok d ∧
        d.summary? = some t ∧
        (d.outputPositions.zip t.ones).Perm [(.slot (.last 7), 0), (.site .front .top .right, 1),
          (.site .front .down .right, 3)] ∧
        t.constantOutputs = 1 ∧ t.stateInputs = 1 ∧ t.stateOutputs = 1 := by
  have hcompile : steady.compile? = some [8, 8, 4, 8] := by decide
  have htotal : steady.IsTotal := Circuit.isTotal_iff.2 ⟨_, hcompile⟩
  obtain ⟨s, table, r, d, t, hs, htable, hr, hd, ht, -, -, -, -, hperm, hconstants, hstateInputs,
    hstateOutputs⟩ := summary?_agrees htotal
  obtain rfl := Option.some.inj (hcompile.symm.trans htable)
  have hsummary : steady.summary? =
      some ⟨steady.inputPositions, steady.outputPositions, 4, [0, 1, 3]⟩ := by decide
  obtain rfl := Option.some.inj (hsummary.symm.trans hs)
  exact ⟨htotal, ⟨_, hs, rfl, by decide⟩, r, d, t, hr, hd, ht, hperm,
    hconstants.trans (by decide), hstateInputs.trans (by decide), hstateOutputs.trans (by decide)⟩

end VoxelLogic
