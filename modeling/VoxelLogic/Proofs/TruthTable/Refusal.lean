import VoxelLogic.Circuit.Adder
import VoxelLogic.Proofs.Record.OfTable
import VoxelLogic.Proofs.TruthTable.Inverse

/-!
# Which tables are decoded

A table is decoded for a number of inputs and a number of outputs if it has a row for each
assignment and no row has a bit above the outputs.  A table with another number of rows is refused
for that alone, and any other with the first row that does not fit.  Decoding for the pins of a
circuit and storing with a circuit accept and refuse the same tables.

* `exists_decodeEntries_iff`: what is accepted.
* `decodeEntries_eq_error_iff_cases`: how the rest is refused.
* `checkTable_congr_sentinels`: sentinels do not matter.
* `decodeEntries_acceptance`: all of it, for decoding and for storing.
-/

namespace VoxelLogic

variable {inputs outputs : Nat} {table other : PackedTable}

theorem exists_decodeEntries_iff_checkTable :
    (∃ entries, decodeEntries inputs outputs table = .ok entries) ↔
      checkTable inputs outputs table = .ok () :=
  ⟨fun ⟨_, h⟩ => checkTable_of_decodeEntries h, exists_decodeEntries⟩

/-- A table is decoded if it has a row for each assignment and its rows are numbers below the bound
that the outputs set. -/
theorem exists_decodeEntries_iff :
    (∃ entries, decodeEntries inputs outputs table = .ok entries) ↔
      table.length = 2 ^ inputs ∧ ∀ row ∈ table, row.toNat < 2 ^ (outputs + 1) := by
  simp only [exists_decodeEntries_iff_checkTable, checkTable_eq_ok_iff,
    PackedRow.fits_iff_toNat_lt]
  rfl

/-- A table is refused for the number of its rows, or else with the first row that does not fit. -/
theorem decodeEntries_eq_error_iff_cases {e : Error} :
    decodeEntries inputs outputs table = .error e ↔
      (table.length ≠ 2 ^ inputs ∧ e = .tableSize (2 ^ inputs) table.length) ∨
        (table.length = 2 ^ inputs ∧ ∃ i row, IsLeast (tooWide outputs table) i ∧
          table[i]? = some row ∧ e = .rowWidth i row (outputs + 1)) := by
  rw [decodeEntries_eq_error_iff]
  by_cases hlength : table.length = 2 ^ inputs
  · have hwide : (∃ found, firstTooWide? outputs table = some found ∧
        e = .rowWidth found.2 found.1 (PackedRow.width outputs)) ↔
        ∃ i row, IsLeast (tooWide outputs table) i ∧ table[i]? = some row ∧
          e = .rowWidth i row (outputs + 1) := by
      constructor
      · rintro ⟨⟨row, i⟩, hfound, he⟩
        obtain ⟨hrow, hleast⟩ := firstTooWide?_eq_some_iff.1 hfound
        exact ⟨i, row, hleast, hrow, he⟩
      · rintro ⟨i, row, hleast, hrow, he⟩
        exact ⟨(row, i), firstTooWide?_eq_some_iff.2 ⟨hrow, hleast⟩, he⟩
    rw [checkTable_eq_error_iff hlength, hwide]
    simp [hlength]
  · have hsize : checkTable inputs outputs table =
        .error (.tableSize (2 ^ inputs) table.length) := if_neg hlength
    rw [hsize, Except.error.injEq, eq_comm]
    simp [hlength]

/-- Tables whose rows differ in their sentinels at most are both accepted or both refused. -/
theorem checkTable_congr_sentinels
    (h : List.Forall₂ (fun row found : PackedRow => ∀ i, i ≠ 0 → row.getLsbD i = found.getLsbD i)
      table other) :
    checkTable inputs outputs other = .ok () ↔ checkTable inputs outputs table = .ok () := by
  have hrows : (∀ row ∈ other, row.fits outputs = true) ↔
      ∀ row ∈ table, row.fits outputs = true := by
    induction h with
    | nil => exact Iff.rfl
    | cons hrow _ ih =>
      rw [List.forall_mem_cons, List.forall_mem_cons, ih, PackedRow.fits_congr hrow]
  rw [checkTable_eq_ok_iff, checkTable_eq_ok_iff, hrows, h.length_eq]

/-- **Which tables are decoded.**  Decoding accepts the tables with one row for each assignment
whose rows are numbers below the bound that the outputs set; for 63 outputs, which fill the word,
every row is.  A table with another number of rows is refused for that, whatever its rows are, and
any other with the first row that is too wide.  Sentinels do not matter.  The truth table for the
pins of a circuit and the record of a circuit are refused for the same tables with the same
errors. -/
theorem decodeEntries_acceptance :
    (∀ inputs outputs (table : PackedTable),
      ((∃ entries, decodeEntries inputs outputs table = .ok entries) ↔
        table.length = 2 ^ inputs ∧ ∀ row ∈ table, row.toNat < 2 ^ (outputs + 1)) ∧
      ((∃ entries, decodeEntries inputs 63 table = .ok entries) ↔ table.length = 2 ^ inputs) ∧
      ∀ e, decodeEntries inputs outputs table = .error e ↔
        (table.length ≠ 2 ^ inputs ∧ e = .tableSize (2 ^ inputs) table.length) ∨
          (table.length = 2 ^ inputs ∧ ∃ i row, IsLeast (tooWide outputs table) i ∧
            table[i]? = some row ∧ e = .rowWidth i row (outputs + 1))) ∧
    (∀ inputs outputs (table other : PackedTable),
      List.Forall₂ (fun row found : PackedRow => ∀ i, i ≠ 0 → row.getLsbD i = found.getLsbD i)
        table other →
      ((∃ entries, decodeEntries inputs outputs other = .ok entries) ↔
        ∃ entries, decodeEntries inputs outputs table = .ok entries)) ∧
    ∀ (c : Circuit) (table : PackedTable),
      (∀ e, (TruthTable.decode c table = .error e ↔
          decodeEntries c.inputs.length c.outputs.length table = .error e) ∧
        (Record.ofTable c table = .error e ↔
          decodeEntries c.inputs.length c.outputs.length table = .error e)) ∧
      ((∃ t, TruthTable.decode c table = .ok t) ↔
        ∃ entries, decodeEntries c.inputs.length c.outputs.length table = .ok entries) ∧
      ((∃ r, Record.ofTable c table = .ok r) ↔
        ∃ entries, decodeEntries c.inputs.length c.outputs.length table = .ok entries) := by
  refine ⟨fun inputs outputs table => ⟨exists_decodeEntries_iff, ?_, fun e =>
    decodeEntries_eq_error_iff_cases⟩, fun inputs outputs table other hother => ?_,
    fun c table => ⟨fun e => ⟨map_eq_error_iff, ?_⟩, exists_map_eq_ok_iff, ?_⟩⟩
  · rw [exists_decodeEntries_iff]
    exact and_iff_left fun row _ => row.isLt
  · rw [exists_decodeEntries_iff_checkTable, exists_decodeEntries_iff_checkTable,
      checkTable_congr_sentinels hother]
  · rw [decodeEntries_eq_error_iff]
    exact map_eq_error_iff
  · rw [exists_decodeEntries_iff_checkTable, Record.ofTable, exists_map_eq_ok_iff]
    constructor
    · rintro ⟨⟨⟩, h⟩
      exact h
    · exact fun h => ⟨(), h⟩

/-- Two tables that differ in their sentinels are refused with their second row for one output and
accepted for 63 outputs, and a table of a single row is refused for the full adder because of the
number of its rows, although the row is too wide as well. -/
theorem decodeEntries_acceptance_uneven :
    decodeEntries 1 1 [3, 4] = .error (.rowWidth 1 4 2) ∧
      (¬ ∃ entries, decodeEntries 1 1 [2, 5] = .ok entries) ∧
      (∃ entries, decodeEntries 1 63 [2, 5] = .ok entries) ∧
      Record.ofTable Circuit.fullAdder [255] = .error (.tableSize 8 1) := by
  obtain ⟨htables, hsentinels, hcircuits⟩ := decodeEntries_acceptance
  have hrefused : decodeEntries 1 1 [3, 4] = .error (.rowWidth 1 4 2) := rfl
  have hfirst : PackedRow.unpack 3 63 = PackedRow.unpack 2 63 := by decide
  have hsecond : PackedRow.unpack 4 63 = PackedRow.unpack 5 63 := by decide
  have hrows : List.Forall₂
      (fun row found : PackedRow => ∀ i, i ≠ 0 → row.getLsbD i = found.getLsbD i)
      [3, 4] [2, 5] :=
    .cons ((PackedRow.unpack_eq_iff (by decide) (by decide)).1 hfirst)
      (.cons ((PackedRow.unpack_eq_iff (by decide) (by decide)).1 hsecond) .nil)
  refine ⟨hrefused, ?_, (htables 1 1 [2, 5]).2.1.2 rfl, ?_⟩
  · rw [hsentinels 1 1 [3, 4] [2, 5] hrows, hrefused]
    rintro ⟨entries, h⟩
    cases h
  · have hsize : decodeEntries 3 2 [255] = .error (.tableSize 8 1) :=
      ((htables 3 2 [255]).2.2 _).2 (.inl ⟨by decide, rfl⟩)
    exact ((hcircuits Circuit.fullAdder [255]).1 _).2.2 hsize

end VoxelLogic
