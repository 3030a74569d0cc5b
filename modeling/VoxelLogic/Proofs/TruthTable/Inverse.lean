import VoxelLogic.Circuit.Adder
import VoxelLogic.Proofs.Circuit.Compiled
import Mathlib.Data.List.Forall2

/-!
# Compiling and decoding undo each other

A compiled table is decoded to the truth table that it was compiled from, and an accepted table is
packed again, row by row, to what it was, up to its sentinels.

* `eq_of_map_eq`: entries are told by their assignments and their outputs, so that two lists of
  entries are compared column by column.
* `decodeEntries_eq_ok_iff`: the entries of an accepted table.
* `map_pack?_of_decodeEntries`, `eq_iff_of_decodeEntries`: what the entries keep of the table.
* `Circuit.map_assignment_of_entries?`, `Circuit.exists_entry_of_entries?`,
  `Circuit.values?_of_mem_entries?`: the entries of a circuit.
* `Circuit.map_pack?_of_entries?`, `Circuit.decodeEntries_of_entries?`: the entries of a circuit can
  be packed, and are decoded from that.
* `decode_compile_inverse`: both directions.
-/

namespace VoxelLogic

/-! ## Entries of a table -/

section Decoded

variable {inputs outputs : Nat} {table other : PackedTable} {entries others : List Entry}

/-- Entries are told by their assignments and their outputs. -/
theorem eq_of_map_eq (hassignments : entries.map Entry.assignment = others.map Entry.assignment)
    (houtputs : entries.map Entry.outputs = others.map Entry.outputs) : entries = others := by
  have hzip (es : List Entry) :
      List.zipWith Entry.mk (es.map Entry.assignment) (es.map Entry.outputs) = es := by
    induction es with
    | nil => rfl
    | cons e es ih => rw [List.map_cons, List.map_cons, List.zipWith_cons_cons, ih]
  rw [← hzip entries, ← hzip others, hassignments, houtputs]

/-- The entries of an accepted table: one for each assignment, with the outputs of its row. -/
theorem decodeEntries_eq_ok_iff :
    decodeEntries inputs outputs table = .ok entries ↔
      checkTable inputs outputs table = .ok () ∧
        entries.map Entry.assignment = Assignment.all inputs ∧
        entries.map Entry.outputs = table.map (·.unpack outputs) := by
  have houtputs : (table.mapIdx fun i row =>
      Entry.mk (Assignment.ofIndex inputs i) (row.unpack outputs)).map Entry.outputs =
      table.map (·.unpack outputs) := by
    apply List.ext_getElem <;> simp
  have hassignments (hlength : table.length = Assignment.count inputs) :
      (table.mapIdx fun i row =>
        Entry.mk (Assignment.ofIndex inputs i) (row.unpack outputs)).map Entry.assignment =
        Assignment.all inputs := by
    apply List.ext_getElem
    · simp [hlength]
    · intro i h₁ h₂
      simp [Assignment.getElem_all]
  rw [decodeEntries, map_eq_ok_iff]
  constructor
  · rintro ⟨⟨⟩, hcheck, rfl⟩
    exact ⟨hcheck, hassignments (checkTable_eq_ok_iff.1 hcheck).1, houtputs⟩
  · rintro ⟨hcheck, hall, hrows⟩
    refine ⟨(), hcheck, eq_of_map_eq ?_ ?_⟩
    · rw [hassignments (checkTable_eq_ok_iff.1 hcheck).1, hall]
    · rw [houtputs, hrows]

/-- An accepted table has entries. -/
theorem exists_decodeEntries (h : checkTable inputs outputs table = .ok ()) :
    ∃ entries, decodeEntries inputs outputs table = .ok entries :=
  ⟨_, map_eq_ok_iff.2 ⟨(), h, rfl⟩⟩

/-- The entries of an accepted table are packed to its rows, with their sentinels cleared. -/
theorem map_pack?_of_decodeEntries (hle : outputs ≤ 63)
    (h : decodeEntries inputs outputs table = .ok entries) :
    entries.map (fun e => PackedRow.pack? e.outputs) =
      table.map fun row => some row.clearSentinel := by
  obtain ⟨hcheck, -, houtputs⟩ := decodeEntries_eq_ok_iff.1 h
  have hpack : ∀ row ∈ table,
      PackedRow.pack? (row.unpack outputs) = some row.clearSentinel := by
    intro row hrow
    have hlt : (row.unpack outputs).length < 64 := by
      rw [PackedRow.length_unpack]
      omega
    have hfits := (checkTable_eq_ok_iff.1 hcheck).2 row hrow
    rw [PackedRow.pack?, if_pos hlt, PackedRow.pack_unpack hfits (by omega)]
  calc entries.map (fun e => PackedRow.pack? e.outputs)
      = (entries.map Entry.outputs).map PackedRow.pack? := by
        rw [List.map_map]
        rfl
    _ = (table.map (·.unpack outputs)).map PackedRow.pack? := by rw [houtputs]
    _ = table.map fun row => some row.clearSentinel := by
        rw [List.map_map]
        exact List.map_congr_left hpack

/-- Two accepted tables have the same entries exactly if their rows differ in their sentinels at
most. -/
theorem eq_iff_of_decodeEntries (h : decodeEntries inputs outputs table = .ok entries)
    (hother : decodeEntries inputs outputs other = .ok others) :
    entries = others ↔
      List.Forall₂ (fun row found : PackedRow => ∀ i, i ≠ 0 → row.getLsbD i = found.getLsbD i)
        table other := by
  obtain ⟨hcheck, hassignments, houtputs⟩ := decodeEntries_eq_ok_iff.1 h
  obtain ⟨hcheckOther, hassignmentsOther, houtputsOther⟩ := decodeEntries_eq_ok_iff.1 hother
  have hrows : entries = others ↔
      table.map (·.unpack outputs) = other.map (·.unpack outputs) := by
    rw [← houtputs, ← houtputsOther]
    constructor
    · rintro rfl
      rfl
    · exact eq_of_map_eq (hassignments.trans hassignmentsOther.symm)
  rw [hrows, ← List.forall₂_eq_eq_eq, List.forall₂_map_left_iff, List.forall₂_map_right_iff,
    List.forall₂_iff_zip, List.forall₂_iff_zip]
  refine and_congr_right fun _ => forall₂_congr fun row found => forall_congr' fun hmem => ?_
  obtain ⟨hrow, hfound⟩ := List.of_mem_zip hmem
  exact PackedRow.unpack_eq_iff ((checkTable_eq_ok_iff.1 hcheck).2 row hrow)
    ((checkTable_eq_ok_iff.1 hcheckOther).2 found hfound)

end Decoded

/-! ## Entries of a circuit -/

namespace Circuit

variable {c : Circuit} {entries : List Entry}

theorem entries?_eq_some_iff :
    c.entries? = some entries ↔
      (Assignment.all c.inputs.length).map c.entry? = entries.map some := by
  rw [entries?, Assignment.tabulate?_eq_mapM, mapM_eq_some_iff]

/-- The truth table of a circuit has one entry for each assignment. -/
theorem map_assignment_of_entries? (h : c.entries? = some entries) :
    entries.map Entry.assignment = Assignment.all c.inputs.length := by
  have hentries : List.Forall₂ (fun a e => c.entry? a = some e)
      (Assignment.all c.inputs.length) entries := by
    rw [entries?_eq_some_iff, ← List.forall₂_eq_eq_eq, List.forall₂_map_left_iff,
      List.forall₂_map_right_iff] at h
    exact h
  rw [← List.forall₂_eq_eq_eq, List.forall₂_map_left_iff]
  refine List.Forall₂.flip (hentries.imp fun a e he => ?_)
  obtain ⟨vs, -, rfl⟩ := Option.map_eq_some_iff.1 he
  rfl

/-- The entries of a circuit have its values. -/
theorem values?_of_mem_entries? (h : c.entries? = some entries) {e : Entry} (he : e ∈ entries) :
    c.values? e.assignment = some e.outputs := by
  have hmem : some e ∈ (Assignment.all c.inputs.length).map c.entry? := by
    rw [entries?_eq_some_iff.1 h]
    exact List.mem_map_of_mem he
  obtain ⟨a, -, ha⟩ := List.mem_map.1 hmem
  obtain ⟨vs, hvs, rfl⟩ := Option.map_eq_some_iff.1 ha
  exact hvs

/-- The entries of a circuit are packed to its table. -/
theorem compile?_of_entries? (h : c.entries? = some entries) :
    c.compile? = some (entries.map fun e => PackedRow.pack e.outputs) := by
  rw [compile?, h, Option.map_some]

theorem length_outputs_of_mem_entries? (h : c.entries? = some entries) {e : Entry}
    (he : e ∈ entries) : e.outputs.length = c.outputs.length :=
  length_of_values? (values?_of_mem_entries? h he)

/-- The entry at a row of the table of a circuit is that of the assignment of the row. -/
theorem exists_entry_of_entries? (h : c.entries? = some entries) {i : Nat}
    (hi : i < Assignment.count c.inputs.length) :
    ∃ e, entries[i]? = some e ∧ e.assignment.length = c.inputs.length ∧ e.assignment.index = i ∧
      e.outputs.length = c.outputs.length := by
  have hlt : i < (Assignment.all c.inputs.length).length := by rwa [Assignment.length_all]
  have hget := congrArg (fun as => as[i]?) (map_assignment_of_entries? h)
  simp only [List.getElem?_map, List.getElem?_eq_getElem hlt, Assignment.getElem_all] at hget
  obtain ⟨e, he, hassignment⟩ := Option.map_eq_some_iff.1 hget
  refine ⟨e, he, ?_, ?_, length_outputs_of_mem_entries? h (List.mem_of_getElem? he)⟩
  · rw [hassignment, Assignment.length_ofIndex]
  · rw [hassignment, Assignment.index_ofIndex_of_lt hi]

/-- A word has room for the outputs of every entry of a circuit. -/
theorem map_pack?_of_entries? (h : c.entries? = some entries) :
    entries.map (fun e => PackedRow.pack? e.outputs) =
      (entries.map fun e => PackedRow.pack e.outputs).map some := by
  rw [List.map_map]
  refine List.map_congr_left fun e he => ?_
  have hlt : e.outputs.length < 64 := by
    rw [length_outputs_of_mem_entries? h he]
    exact c.length_outputs_lt
  rw [PackedRow.pack?, if_pos hlt, Function.comp_apply]

/-- The packed entries of a circuit are decoded to the entries. -/
theorem decodeEntries_of_entries? (h : c.entries? = some entries) :
    decodeEntries c.inputs.length c.outputs.length
      (entries.map fun e => PackedRow.pack e.outputs) = .ok entries := by
  refine decodeEntries_eq_ok_iff.2 ⟨checkTable_of_compile? (compile?_of_entries? h),
    map_assignment_of_entries? h, ?_⟩
  rw [List.map_map]
  refine List.map_congr_left fun e he => ?_
  have hlength := length_outputs_of_mem_entries? h he
  have hlt : e.outputs.length < 64 := by
    rw [hlength]
    exact c.length_outputs_lt
  rw [Function.comp_apply, ← hlength, PackedRow.unpack_pack hlt]

end Circuit

/-! ## Both directions -/

/-- **Compiling and decoding undo each other.**  A total circuit is compiled to a table of one row
for each assignment, in which no sentinel and no bit above the outputs is set, and the table is
decoded to the truth table of the circuit.  Conversely the entries of an accepted table run through
all assignments in the order of their rows, each of them once, and are packed to the rows with their
sentinels cleared; so two accepted tables have the same entries exactly if their rows differ in
their sentinels at most. -/
theorem decode_compile_inverse :
    (∀ c : Circuit, c.IsTotal → ∃ table entries columns,
      c.compile? = some table ∧ c.entries? = some entries ∧
      entries.map (fun e => PackedRow.pack? e.outputs) = table.map some ∧
      table.length = 2 ^ c.inputs.length ∧
      (∀ row ∈ table, row.getLsbD 0 = false ∧ row.toNat < 2 ^ (c.outputs.length + 1)) ∧
      decodeEntries c.inputs.length c.outputs.length table = .ok entries ∧
      TruthTable.decode c table = .ok columns ∧ TruthTable.ofCircuit? c = some columns) ∧
    (∀ inputs outputs table entries, outputs ≤ 63 →
      decodeEntries inputs outputs table = .ok entries →
      (∀ a : Assignment, (entries.map Entry.assignment).count a =
        if a.length = inputs then 1 else 0) ∧
      (entries.map Entry.assignment).Pairwise (fun a b => a.index < b.index) ∧
      entries.map (fun e => PackedRow.pack? e.outputs) =
        table.map fun row => some row.clearSentinel) ∧
    ∀ inputs outputs table other entries others,
      decodeEntries inputs outputs table = .ok entries →
      decodeEntries inputs outputs other = .ok others →
      (entries = others ↔
        List.Forall₂ (fun row found : PackedRow => ∀ i, i ≠ 0 → row.getLsbD i = found.getLsbD i)
          table other) := by
  refine ⟨fun c hc => ?_, fun inputs outputs table entries hle h => ⟨fun a => ?_, ?_, ?_⟩,
    fun inputs outputs table other entries others h hother => eq_iff_of_decodeEntries h hother⟩
  · obtain ⟨entries, hentries⟩ := hc.exists_entries
    have hcompile := Circuit.compile?_of_entries? hentries
    have hdecode := Circuit.decodeEntries_of_entries? hentries
    refine ⟨_, entries, ⟨c.inputPositions, c.outputPositions, entries⟩, hcompile, hentries,
      Circuit.map_pack?_of_entries? hentries, Circuit.length_of_compile? hcompile,
      fun row hrow => ?_, hdecode, ?_, ?_⟩
    · obtain ⟨vs, -, rfl⟩ := Circuit.exists_pack_of_mem_compile? hcompile hrow
      have hfits := (checkTable_eq_ok_iff.1 (Circuit.checkTable_of_compile? hcompile)).2 _ hrow
      exact ⟨PackedRow.sentinel_pack vs, PackedRow.fits_iff_toNat_lt.1 hfits⟩
    · exact map_eq_ok_iff.2 ⟨entries, hdecode, rfl⟩
    · rw [TruthTable.ofCircuit?, hentries, Option.map_some]
  · rw [(decodeEntries_eq_ok_iff.1 h).2.1]
    split
    · next hlength => exact Assignment.count_all hlength
    · next hlength =>
      exact List.count_eq_zero_of_not_mem fun hmem => hlength (Assignment.mem_all_iff.1 hmem)
  · rw [(decodeEntries_eq_ok_iff.1 h).2.1]
    exact Assignment.pairwise_all inputs
  · exact map_pack?_of_decodeEntries hle h

/-- The full adder is decoded from its table, and two tables whose rows fill the word and differ in
their sentinels have the same entries. -/
theorem decode_compile_inverse_fullAdder :
    (∃ entries, Circuit.fullAdder.entries? = some entries ∧
      decodeEntries 3 2 [0, 2, 2, 4, 2, 4, 4, 6] = .ok entries) ∧
    ∃ entries others,
      decodeEntries 1 63 [18446744073709551615, 6] = .ok entries ∧
      decodeEntries 1 63 [18446744073709551614, 7] = .ok others ∧ entries = others ∧
      entries.map (fun e => PackedRow.pack? e.outputs) = [some 18446744073709551614, some 6] := by
  obtain ⟨hcircuit, htable, hsame⟩ := decode_compile_inverse
  constructor
  · have hcompile : Circuit.fullAdder.compile? = some [0, 2, 2, 4, 2, 4, 4, 6] := by decide
    obtain ⟨table, entries, -, hfound, hentries, -, -, -, hdecode, -⟩ :=
      hcircuit Circuit.fullAdder (Circuit.isTotal_iff.2 ⟨_, hcompile⟩)
    obtain rfl := Option.some.inj (hcompile.symm.trans hfound)
    exact ⟨entries, hentries, hdecode⟩
  · have hfull : checkTable 1 63 [18446744073709551615, 6] = .ok () := by decide
    have hcleared : checkTable 1 63 [18446744073709551614, 7] = .ok () := by decide
    obtain ⟨entries, hentries⟩ := exists_decodeEntries hfull
    obtain ⟨others, hothers⟩ := exists_decodeEntries hcleared
    have hrows := (checkTable_eq_ok_iff.1 hfull).2
    have hrowsOther := (checkTable_eq_ok_iff.1 hcleared).2
    rw [List.forall_mem_cons, List.forall_mem_singleton] at hrows hrowsOther
    refine ⟨entries, others, hentries, hothers, ?_, ?_⟩
    · refine (hsame 1 63 _ _ entries others hentries hothers).2 (.cons ?_ (.cons ?_ .nil))
      · exact (PackedRow.unpack_eq_iff hrows.1 hrowsOther.1).1 (by decide)
      · exact (PackedRow.unpack_eq_iff hrows.2 hrowsOther.2).1 (by decide)
    · rw [(htable 1 63 _ entries (Nat.le_refl 63) hentries).2.2]
      decide

end VoxelLogic
