import VoxelLogic.Proofs.Circuit.Compiled
import VoxelLogic.Proofs.Record.Pins
import VoxelLogic.Proofs.Record.Reordered

/-!
# The record of a circuit and its table

The record of a circuit lists the pins in the order of the catalog and moves the rows of the table,
and the bits of each row, accordingly.  Reading the record back undoes both moves.

The pins come back sorted (`typedPositions_sortedPins`).  A row comes back at another place: the row
that the sorted inputs select in the record is gathered from the row that the inputs of the circuit
select in the table, for the same values of the positions (`getElem?_rowsOf`).  An output comes back
at another bit: the bit of a gathered row at the place of a position among the sorted outputs is the
bit of the row at its place in the circuit (`output_gatherOutputs`).  Together they give
`circuit_stored`, and for the table of the circuit itself `valueAt?_stored`.
-/

namespace VoxelLogic

open Position

namespace Record

/-! ## Pins -/

/-- The type code that a list of pins gives to a position, zero if it has none. -/
def codeOf (pins : List (Position × PinType)) (p : Position) : UInt8 :=
  ((pins.lookup p).map PinType.code).getD 0

/-- Pins in the order of the catalog, with the types of their codes. -/
def sortedPins (pins : List (Position × PinType)) : List (Position × PinType) :=
  (sorted (pins.map Prod.fst)).map fun p => (p, PinType.ofCode (codeOf pins p))

theorem usedPositions_map (f : Position → UInt32) :
    usedPositions (all.map f) = all.filter fun p => f p != 0 := by
  unfold usedPositions
  induction all with
  | nil => rfl
  | cons p rest ih =>
    rw [List.map_cons, List.zip_cons_cons]
    by_cases hp : (f p != 0) = true
    · rw [List.filter_cons_of_pos (by exact hp), List.map_cons, ih, List.filter_cons, if_pos hp]
    · rw [List.filter_cons_of_neg (by exact hp), ih, List.filter_cons, if_neg hp]

/-- A position that occurs is numbered from one on. -/
theorem remap_ne_zero {ps : List Position} (h : ps.Nodup) {p : Position} (hp : p ∈ ps) :
    UInt32.ofNat (ps.countP fun q => q.index ≤ p.index) ≠ 0 := by
  have hpos : 0 < ps.countP fun q => q.index ≤ p.index :=
    List.countP_pos_iff.2 ⟨p, hp, by simp⟩
  have hle : (ps.countP fun q => q.index ≤ p.index) ≤ count :=
    Nat.le_trans List.countP_le_length (length_le_count h)
  have hcount : count = 35 := rfl
  intro hzero
  have hnat := congrArg UInt32.toNat hzero
  rw [UInt32.toNat_ofNat_of_lt' (by unfold UInt32.size; omega)] at hnat
  have hnat' : (ps.countP fun q => q.index ≤ p.index) = 0 := hnat
  omega

/-- The remap of distinct positions uses these positions. -/
theorem usedPositions_remapOf {ps : List Position} (h : ps.Nodup) :
    usedPositions (remapOf ps) = sorted ps := by
  rw [remapOf, usedPositions_map, sorted]
  refine List.filter_congr fun p _ => ?_
  by_cases hp : p ∈ ps
  · simpa [hp] using remap_ne_zero h hp
  · simp [hp]

theorem getElem?_codesOf (pins : List (Position × PinType)) (p : Position) :
    (codesOf pins)[p.index]? = some (codeOf pins p) := by
  have hp : all[p.index]? = some p := atIndex?_index p
  rw [codesOf, List.getElem?_map, hp, Option.map_some, codeOf]

theorem typed_codesOf (side : RecordSide) (pins : List (Position × PinType)) (ps : List Position) :
    typed side (codesOf pins) ps =
      .ok (ps.map fun p => (p, PinType.ofCode (codeOf pins p))) := by
  induction ps with
  | nil => rfl
  | cons p ps ih =>
    rw [typed, getElem?_codesOf]
    simp only [ih]
    rfl

/-- The pins that were stored are read back sorted. -/
theorem typedPositions_sortedPins (side : RecordSide) {pins : List (Position × PinType)}
    (h : (pins.map Prod.fst).Nodup) :
    typedPositions side (remapOf (pins.map Prod.fst)) (codesOf pins) = .ok (sortedPins pins) := by
  have hcount : (remapOf (pins.map Prod.fst)).length = count := by
    rw [remapOf, List.length_map, length_all]
  have hlen : (remapOf (pins.map Prod.fst)).length ≤ count := Nat.le_of_eq hcount
  rw [typedPositions, if_pos hlen, usedPositions_remapOf h, typed_codesOf, sortedPins]

theorem lookup_of_mem {pins : List (Position × PinType)} (h : (pins.map Prod.fst).Nodup)
    {e : Position × PinType} (he : e ∈ pins) : pins.lookup e.1 = some e.2 := by
  induction pins with
  | nil => cases he
  | cons e' rest ih =>
    rw [List.map_cons, List.nodup_cons] at h
    obtain ⟨p', type'⟩ := e'
    rcases List.mem_cons.1 he with rfl | hrest
    · exact List.lookup_cons_self
    · have hne : (e.1 == p') = false :=
        beq_eq_false_iff_ne.2 fun heq => h.1 (List.mem_map.2 ⟨e, hrest, heq⟩)
      rw [List.lookup_cons, hne]
      exact ih h.2 hrest

theorem codeOf_of_mem {pins : List (Position × PinType)} (h : (pins.map Prod.fst).Nodup)
    {e : Position × PinType} (he : e ∈ pins) : codeOf pins e.1 = e.2.code := by
  rw [codeOf, lookup_of_mem h he, Option.map_some, Option.getD_some]

theorem map_fst_sortedPins (pins : List (Position × PinType)) :
    (sortedPins pins).map Prod.fst = sorted (pins.map Prod.fst) := by
  rw [sortedPins, List.map_map]
  exact List.map_id _

theorem length_sortedPins {pins : List (Position × PinType)} (h : (pins.map Prod.fst).Nodup) :
    (sortedPins pins).length = pins.length := by
  rw [sortedPins, List.length_map, length_sorted h, List.length_map]

/-- Sorting pins keeps their positions and codes. -/
theorem map_code_sortedPins_perm {pins : List (Position × PinType)}
    (h : (pins.map Prod.fst).Nodup) :
    ((sortedPins pins).map fun e => (e.1, e.2.code)).Perm
      (pins.map fun e => (e.1, e.2.code)) := by
  have hpins : (pins.map fun e => (e.1, e.2.code)) =
      (pins.map Prod.fst).map fun p => (p, codeOf pins p) := by
    rw [List.map_map]
    refine List.map_congr_left fun e he => ?_
    rw [Function.comp_apply, codeOf_of_mem h he]
  rw [hpins, sortedPins, List.map_map]
  simp only [Function.comp_def, PinType.code_ofCode]
  exact (sorted_perm h).map _

/-- Sorted pins can be made if the pins could. -/
theorem takes_sortedPins {pins : List (Position × PinType)} (h : (pins.map Prod.fst).Nodup)
    (htakes : ∀ e ∈ pins, e.1.takes e.2 = true) :
    ∀ e ∈ sortedPins pins, e.1.takes e.2 = true := by
  intro e he
  obtain ⟨p, hp, rfl⟩ := List.mem_map.1 he
  obtain ⟨e, he', rfl⟩ := List.mem_map.1 (mem_sorted.1 hp)
  simp only
  rw [codeOf_of_mem h he', takes_ofCode, htakes e he']

/-! ## Rows -/

/-- The row that the sorted inputs select in the record comes from the row that the inputs of the
circuit select in the table. -/
theorem getElem?_rowsOf {ps : List Position} (h : ps.Nodup) (outputOrder : List Nat)
    {table : PackedTable} (hlen : table.length = Assignment.count ps.length) (v : Position → Bool) :
    (rowsOf (catalogOrder ps) outputOrder table)[Assignment.index ((sorted ps).map v)]? =
      (table[Assignment.index (ps.map v)]?).map (gatherOutputs outputOrder) := by
  have hlt : Assignment.index ((sorted ps).map v) < table.length := by
    rw [hlen]
    exact Assignment.index_lt_of_length (by rw [List.length_map, length_sorted h])
  have hlt' : Assignment.index (ps.map v) < table.length := by
    rw [hlen]
    exact Assignment.index_lt_of_length (List.length_map _)
  have hsource : sourceRow (catalogOrder ps) (Assignment.index ((sorted ps).map v)) =
      Assignment.index (ps.map v) := by
    rw [sourceRow, Assignment.ofIndex_index_of_length, scatter_catalogOrder h]
    rw [List.length_map, length_sorted h, length_catalogOrder h]
  rw [← hsource] at hlt' ⊢
  rw [getElem?_rowsOf_of_lt outputOrder hlt hlt', List.getElem?_eq_getElem hlt', Option.map_some]

/-- A gathered row has the bit of each position at the place of the position among the sorted
outputs. -/
theorem output_gatherOutputs {qs : List Position} (h : qs.Nodup) (row : PackedRow) {j : Nat}
    (hj : j < (sorted qs).length) :
    (gatherOutputs (catalogOrder qs) row).output j = row.output (qs.idxOf (sorted qs)[j]) := by
  have hroom : (catalogOrder qs).length ≤ 63 := by
    rw [length_catalogOrder h]
    exact Nat.le_trans (length_le_count h) (by decide)
  rw [output_gatherOutputs_eq hroom, catalogOrder_eq_map, List.getElem?_map,
    List.getElem?_eq_getElem hj]
  rfl

theorem fits_gatherOutputs {qs : List Position} (h : qs.Nodup) (row : PackedRow) :
    (gatherOutputs (catalogOrder qs) row).fits qs.length = true := by
  have hlen : ((catalogOrder qs).map row.output).length = qs.length := by
    rw [List.length_map, length_catalogOrder h]
  refine PackedRow.fits_pack ?_ (Nat.le_of_eq hlen)
  rw [hlen]
  exact Nat.lt_of_le_of_lt (length_le_count h) (by decide)

/-! ## The circuit of the record -/

/-- The record that is made of a circuit and a table that is accepted for it. -/
def stored (c : Circuit) (table : PackedTable) : Record where
  inputRemap := remapOf c.inputPositions
  outputRemap := remapOf c.outputPositions
  inputTypes := codesOf (c.inputs.map fun pin => (pin.position, pin.type))
  outputTypes := codesOf (c.outputs.map fun pin => (pin.position, pin.type))
  groups := [rowsOf (catalogOrder c.inputPositions) (catalogOrder c.outputPositions) table]

variable {c : Circuit} {table : PackedTable}

theorem ofTable_eq_ok_iff {r : Record} :
    ofTable c table = .ok r ↔
      checkTable c.inputs.length c.outputs.length table = .ok () ∧ r = stored c table := by
  rw [ofTable, map_eq_ok_iff]
  constructor
  · rintro ⟨⟨⟩, h, rfl⟩
    exact ⟨h, rfl⟩
  · rintro ⟨h, rfl⟩
    exact ⟨(), h, rfl⟩

theorem table_stored (c : Circuit) (table : PackedTable) :
    (stored c table).table =
      rowsOf (catalogOrder c.inputPositions) (catalogOrder c.outputPositions) table :=
  List.flatten_singleton

/-- The rows of the record are accepted for the pins of the circuit. -/
theorem checkTable_stored (h : checkTable c.inputs.length c.outputs.length table = .ok ()) :
    checkTable c.inputs.length c.outputs.length (stored c table).table = .ok () := by
  rw [table_stored]
  refine checkTable_eq_ok_iff.2 ⟨?_, fun row hrow => ?_⟩
  · rw [rowsOf, List.length_map, List.length_range, (checkTable_eq_ok_iff.1 h).1]
  · obtain ⟨i, -, rfl⟩ := List.mem_map.1 hrow
    rw [← c.length_outputPositions]
    exact fits_gatherOutputs c.outputs_nodup _

/-- The circuit of the record has the pins of the circuit in the order of the catalog. -/
theorem exists_circuit_stored (h : checkTable c.inputs.length c.outputs.length table = .ok ()) :
    ∃ d, (stored c table).circuit = .ok d ∧
      d.inputs.map inputParts = sortedPins (c.inputs.map inputParts) ∧
      d.outputs.map (fun pin => (pin.position, pin.type)) =
        sortedPins (c.outputs.map fun pin => (pin.position, pin.type)) := by
  have hins : (c.inputs.map inputParts).map Prod.fst = c.inputPositions := List.map_map
  have houts : (c.outputs.map fun pin => (pin.position, pin.type)).map Prod.fst =
      c.outputPositions := List.map_map
  have hinNodup : ((c.inputs.map inputParts).map Prod.fst).Nodup := hins ▸ c.inputs_nodup
  have houtNodup : ((c.outputs.map fun pin => (pin.position, pin.type)).map Prod.fst).Nodup :=
    houts ▸ c.outputs_nodup
  have hinTakes : ∀ e ∈ c.inputs.map inputParts, e.1.takes e.2 = true := by
    intro e he
    obtain ⟨pin, -, rfl⟩ := List.mem_map.1 he
    exact pin.takes
  have houtTakes : ∀ e ∈ c.outputs.map fun pin => (pin.position, pin.type),
      e.1.takes e.2 = true := by
    intro e he
    obtain ⟨pin, -, rfl⟩ := List.mem_map.1 he
    exact pin.takes
  have hinTyped := typedPositions_sortedPins .input hinNodup
  have houtTyped := typedPositions_sortedPins .output houtNodup
  rw [hins] at hinTyped
  rw [houts] at houtTyped
  have hcheck : checkTable (sortedPins (c.inputs.map inputParts)).length
      (sortedPins (c.outputs.map fun pin => (pin.position, pin.type))).length
      (stored c table).table = .ok () := by
    rw [length_sortedPins hinNodup, length_sortedPins houtNodup, List.length_map, List.length_map]
    exact checkTable_stored h
  obtain ⟨d, hd, hdins, hdouts⟩ := exists_circuit hinTyped houtTyped hcheck
    (takes_sortedPins hinNodup hinTakes) (takes_sortedPins houtNodup houtTakes)
  refine ⟨d, hd, hdins, ?_⟩
  have hpairs := congrArg (List.map fun e => (e.1, e.2.1)) hdouts
  rw [map_lookUpParts, List.map_map] at hpairs
  exact hpairs

/-- **Storing a table and reading it back.**  The circuit of the record has the pins of the circuit
in the order of the catalog, and every output position has the bit that the table has for it. -/
theorem circuit_stored (h : checkTable c.inputs.length c.outputs.length table = .ok ())
    {d : Circuit} (hd : (stored c table).circuit = .ok d) :
    d.inputPositions = sorted c.inputPositions ∧ d.inputCodes.Perm c.inputCodes ∧
      d.outputPositions = sorted c.outputPositions ∧ d.outputCodes.Perm c.outputCodes ∧
      ∀ (v : Position → Bool) (k : Nat) (hk : k < c.outputPositions.length),
        d.valueAt? v c.outputPositions[k] =
          (table[(c.assignmentOf v).index]?).map fun row => row.output k := by
  obtain ⟨d', hd', hins, houts⟩ := exists_circuit_stored h
  obtain rfl : d' = d := Except.ok.inj (hd'.symm.trans hd)
  have hinNodup : c.inputPositions.Nodup := c.inputs_nodup
  have houtNodup : c.outputPositions.Nodup := c.outputs_nodup
  have hinPositions : d'.inputPositions = sorted c.inputPositions := by
    have hfst := congrArg (List.map Prod.fst) hins
    rwa [map_fst_sortedPins, List.map_map, List.map_map] at hfst
  have houtPositions : d'.outputPositions = sorted c.outputPositions := by
    have hfst := congrArg (List.map Prod.fst) houts
    rwa [map_fst_sortedPins, List.map_map, List.map_map] at hfst
  refine ⟨hinPositions, ?_, houtPositions, ?_, fun v k hk => ?_⟩
  · have hfst : ((c.inputs.map inputParts).map Prod.fst).Nodup := by
      rw [List.map_map]
      exact hinNodup
    have hperm := map_code_sortedPins_perm hfst
    rw [← hins, List.map_map, List.map_map] at hperm
    exact hperm
  · have hfst : ((c.outputs.map fun pin => (pin.position, pin.type)).map Prod.fst).Nodup := by
      rw [List.map_map]
      exact houtNodup
    have hperm := map_code_sortedPins_perm hfst
    rw [← houts, List.map_map, List.map_map] at hperm
    exact hperm
  · -- the position stands at some place `j` among the sorted outputs
    have hmem : c.outputPositions[k] ∈ d'.outputPositions := by
      rw [houtPositions, mem_sorted]
      exact List.getElem_mem hk
    obtain ⟨j, hj, hjk⟩ := List.getElem_of_mem hmem
    have hj' : j < (sorted c.outputPositions).length := houtPositions ▸ hj
    have hsortedj : (sorted c.outputPositions)[j] = c.outputPositions[k] := by
      rw [← hjk]
      simp only [houtPositions]
    have hidx : c.outputPositions.idxOf c.outputPositions[k] = k :=
      List.Nodup.idxOf_getElem houtNodup k hk
    have hlen : table.length = Assignment.count c.inputPositions.length := by
      rw [c.length_inputPositions, (checkTable_eq_ok_iff.1 h).1]
    rw [← hjk, Circuit.valueAt?, outputAt?_of_circuit hd _ hj, table_stored, Circuit.assignmentOf,
      hinPositions, getElem?_rowsOf hinNodup _ hlen, Option.map_map, Circuit.assignmentOf]
    congr 1
    funext row
    rw [Function.comp_apply, output_gatherOutputs houtNodup row hj', hsortedj, hidx]

/-- A circuit and the circuit of its record compute the same. -/
theorem valueAt?_stored (h : c.compile? = some table) {d : Circuit}
    (hd : (stored c table).circuit = .ok d) (v : Position → Bool) (p : Position) :
    d.valueAt? v p = c.valueAt? v p := by
  obtain ⟨-, -, houts, -, hvalue⟩ := circuit_stored (Circuit.checkTable_of_compile? h) hd
  by_cases hp : p ∈ c.outputPositions
  · obtain ⟨k, hk, rfl⟩ := List.getElem_of_mem hp
    obtain ⟨row, hrow, hout⟩ := Circuit.exists_row_of_compile? h (c.length_assignmentOf v)
    rw [hvalue v k hk, hrow, Option.map_some, Circuit.valueAt?, hout k hk]
  · have hp' : p ∉ d.outputPositions := by rwa [houts, mem_sorted]
    rw [Circuit.valueAt?, Circuit.valueAt?, Circuit.outputAt?_eq_none hp,
      Circuit.outputAt?_eq_none hp']

end Record

end VoxelLogic
