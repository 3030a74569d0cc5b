import VoxelLogic.Proofs.Catalog
import VoxelLogic.Proofs.Circuit.ByPosition
import VoxelLogic.Proofs.TableCheck

/-!
# Compiled tables

The table of a compiled circuit has, at the row of each assignment, the values of the outputs there.

* `length_inputs_le`, `length_outputs_le`: how many pins a circuit can have.
* `check_eq_ok_iff`: when the check of a circuit succeeds.
* `compile?_eq_some_iff`: the rows of the table are the stored values at all assignments.
* `getElem?_of_compile?`, `exists_row_of_compile?`: the row of an assignment.
* `isTotal_iff`: a circuit can be compiled exactly if it is total.
* `checkTable_of_compile?`: the table is accepted for the circuit, because a circuit has no more
  outputs than the catalog has positions and a word has room for more.
-/

namespace VoxelLogic.Circuit

variable {c : Circuit} {table : PackedTable}

/-- A circuit has no more inputs than the catalog has positions. -/
theorem length_inputs_le (c : Circuit) : c.inputs.length ≤ Position.count := by
  have h := Position.length_le_count c.inputs_nodup
  rwa [List.length_map] at h

/-- A circuit has no more outputs than the catalog has positions. -/
theorem length_outputs_le (c : Circuit) : c.outputs.length ≤ Position.count := by
  have h := Position.length_le_count c.outputs_nodup
  rwa [List.length_map] at h

/-- A word has room for the outputs of a circuit. -/
theorem length_outputs_lt (c : Circuit) : c.outputs.length < 64 :=
  Nat.lt_of_le_of_lt c.length_outputs_le (by decide)

/-- The check succeeds if every output can be used with the inputs. -/
theorem check_eq_ok_iff :
    c.check = .ok () ↔ ∀ pin ∈ c.outputs, pin.accepts c.inputs.length = true := by
  have hnone : c.outputs.find? (fun o => !o.accepts c.inputs.length) = none ↔
      ∀ pin ∈ c.outputs, pin.accepts c.inputs.length = true := by
    simp [List.find?_eq_none]
  rw [← hnone, check]
  cases c.outputs.find? fun o => !o.accepts c.inputs.length with
  | none => simp
  | some pin => simp

theorem length_of_values? {a : Assignment} {vs : List Bool} (h : c.values? a = some vs) :
    vs.length = c.outputs.length := by
  have hlen := congrArg List.length (values?_eq_some_iff.1 h).2
  simpa using hlen.symm

/-- The values of the outputs are those of the output positions. -/
theorem map_outputAt?_of_values? {a : Assignment} {vs : List Bool} (h : c.values? a = some vs) :
    c.outputPositions.map (c.outputAt? a) = vs.map some := by
  rw [map_outputAt?, (values?_eq_some_iff.1 h).2]

/-- The rows of a compiled table store the values at all assignments. -/
theorem compile?_eq_some_iff :
    c.compile? = some table ↔
      ∃ rows : List (List Bool), (Assignment.all c.inputs.length).map c.values? = rows.map some ∧
        table = rows.map PackedRow.pack := by
  simp only [compile?, entries?, Assignment.tabulate?_eq_mapM, Option.map_eq_some_iff,
    mapM_eq_some_iff]
  constructor
  · rintro ⟨entries, hentries, rfl⟩
    refine ⟨entries.map Entry.outputs, ?_, by rw [List.map_map]; rfl⟩
    have houtputs := congrArg (List.map (Option.map Entry.outputs)) hentries
    simpa [ entry?, Function.comp_def] using houtputs
  · rintro ⟨rows, hrows, rfl⟩
    have hlen : rows.length = (Assignment.all c.inputs.length).length := by
      simpa using (congrArg List.length hrows).symm
    refine ⟨(Assignment.all c.inputs.length).zipWith Entry.mk rows, ?_, ?_⟩
    · apply List.ext_getElem
      · simp [hlen]
      · intro i h₁ h₂
        have hi : i < rows.length := by
          rw [hlen]
          simpa using h₁
        have hval : c.values? (Assignment.all c.inputs.length)[i] = some rows[i] := by
          have hget := congrArg (fun l => l[i]?) hrows
          simpa [List.getElem?_eq_getElem hi, List.getElem?_eq_getElem (hlen ▸ hi)] using hget
        simp [ entry?, hval]
    · apply List.ext_getElem
      · simp [hlen]
      · intro i h₁ h₂
        simp

/-- The row of an assignment in a compiled table stores the values there. -/
theorem getElem?_of_compile? (h : c.compile? = some table) {a : Assignment}
    (hlen : a.length = c.inputs.length) :
    ∃ vs, c.values? a = some vs ∧ table[a.index]? = some (PackedRow.pack vs) := by
  obtain ⟨rows, hrows, rfl⟩ := compile?_eq_some_iff.1 h
  have hget := congrArg (fun l => l[a.index]?) hrows
  simp only [List.getElem?_map, Assignment.getElem?_all_index hlen, Option.map_some] at hget
  cases hrow : rows[a.index]? with
  | none =>
    rw [hrow] at hget
    cases hget
  | some vs =>
    rw [hrow, Option.map_some] at hget
    refine ⟨vs, Option.some.inj hget, ?_⟩
    rw [List.getElem?_map, hrow, Option.map_some]

/-- The row of an assignment in a compiled table has the outputs at their places. -/
theorem exists_row_of_compile? (h : c.compile? = some table) {a : Assignment}
    (hlen : a.length = c.inputs.length) :
    ∃ row, table[a.index]? = some row ∧
      ∀ (k : Nat) (hk : k < c.outputPositions.length),
        c.outputAt? a c.outputPositions[k] = some (row.output k) := by
  obtain ⟨vs, hvs, hrow⟩ := getElem?_of_compile? h hlen
  refine ⟨PackedRow.pack vs, hrow, fun k hk => ?_⟩
  have hlt : vs.length < 64 := by
    rw [length_of_values? hvs]
    exact c.length_outputs_lt
  have hk' : k < vs.length := by
    rw [length_of_values? hvs, ← c.length_outputPositions]
    exact hk
  have hget := congrArg (fun l => l[k]?) (map_outputAt?_of_values? hvs)
  simp only [List.getElem?_map, List.getElem?_eq_getElem hk, List.getElem?_eq_getElem hk',
    Option.map_some, Option.some.injEq] at hget
  rw [hget, PackedRow.output_pack hlt, List.getElem?_eq_getElem hk', Option.getD_some]

/-- A circuit can be compiled exactly if it is total. -/
theorem isTotal_iff : c.IsTotal ↔ ∃ table, c.compile? = some table := by
  constructor
  · intro hc
    have hvalues : ∀ a ∈ Assignment.all c.inputs.length,
        c.values? a = some ((c.values? a).getD []) := by
      intro a ha
      obtain ⟨vs, hvs⟩ := hc.exists_values (Assignment.mem_all_iff.1 ha)
      rw [hvs, Option.getD_some]
    refine ⟨_, compile?_eq_some_iff.2
      ⟨(Assignment.all c.inputs.length).map fun a => (c.values? a).getD [], ?_, rfl⟩⟩
    rw [List.map_map]
    exact List.map_congr_left hvalues
  · rintro ⟨table, htable⟩ a hlen pin hpin
    obtain ⟨vs, hvs, -⟩ := getElem?_of_compile? htable hlen
    have hmem : pin.value? a ∈ vs.map some := by
      rw [← (values?_eq_some_iff.1 hvs).2]
      exact List.mem_map_of_mem hpin
    obtain ⟨b, -, hb⟩ := List.mem_map.1 hmem
    rw [← hb]
    rfl

/-- A total circuit has a truth table. -/
theorem IsTotal.exists_entries (hc : c.IsTotal) : ∃ entries, c.entries? = some entries := by
  obtain ⟨table, htable⟩ := isTotal_iff.1 hc
  obtain ⟨entries, hentries, -⟩ := Option.map_eq_some_iff.1 htable
  exact ⟨entries, hentries⟩

theorem length_of_compile? (h : c.compile? = some table) :
    table.length = Assignment.count c.inputs.length := by
  obtain ⟨rows, hrows, rfl⟩ := compile?_eq_some_iff.1 h
  simpa using (congrArg List.length hrows).symm

/-- Every row of a compiled table stores as many values as the circuit has outputs. -/
theorem exists_pack_of_mem_compile? (h : c.compile? = some table) {row : PackedRow}
    (hrow : row ∈ table) : ∃ vs, vs.length = c.outputs.length ∧ row = PackedRow.pack vs := by
  obtain ⟨rows, hrows, rfl⟩ := compile?_eq_some_iff.1 h
  obtain ⟨vs, hvs, rfl⟩ := List.mem_map.1 hrow
  have hmem : some vs ∈ (Assignment.all c.inputs.length).map c.values? := by
    rw [hrows]
    exact List.mem_map_of_mem hvs
  obtain ⟨a, -, ha⟩ := List.mem_map.1 hmem
  exact ⟨vs, length_of_values? ha, rfl⟩

/-- Compiled tables have clear sentinels. -/
theorem map_clearSentinel_of_compile? (h : c.compile? = some table) :
    table.map PackedRow.clearSentinel = table := by
  refine (List.map_congr_left fun row hrow => ?_).trans (List.map_id _)
  obtain ⟨vs, -, rfl⟩ := exists_pack_of_mem_compile? h hrow
  exact PackedRow.clearSentinel_pack vs

/-- The table of a compiled circuit is accepted for the circuit. -/
theorem checkTable_of_compile? (h : c.compile? = some table) :
    checkTable c.inputs.length c.outputs.length table = .ok () := by
  refine checkTable_eq_ok_iff.2 ⟨length_of_compile? h, fun row hrow => ?_⟩
  obtain ⟨vs, hlen, rfl⟩ := exists_pack_of_mem_compile? h hrow
  have hlt : vs.length < 64 := by
    rw [hlen]
    exact c.length_outputs_lt
  exact PackedRow.fits_pack hlt (Nat.le_of_eq hlen)

end VoxelLogic.Circuit
