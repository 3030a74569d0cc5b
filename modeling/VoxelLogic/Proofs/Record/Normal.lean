import VoxelLogic.Proofs.Record.CanonicalForm
import Mathlib.Algebra.Group.Nat.Defs

/-!
# Normal records

Many records describe one circuit: a remap may stop early and number positions in any way, type
codes may go on beyond the catalog and stand at unused positions, rows may come in any groups and
have any sentinels.  Loading a record and saving the circuit with the table of the record normalises
all of this, and doing so again changes nothing.

* `normal`: the normal form of a record, field by field.
* `normal_normal`: it is its own normal form.
* `stored_table_eq_normal`: what is saved is the normal form.
* `compile?_of_circuit`: the table of the circuit has the rows of the record with clear sentinels.
* `normal_of_circuit`: the two together.
-/

namespace VoxelLogic

open Position

namespace Record

/-! ## The normal form -/

/-- The entry of a list at the place of a position, zero if the list ends before. -/
def entryAt {α : Type} [OfNat α 0] (entries : List α) (p : Position) : α :=
  entries[p.index]?.getD 0

/-- Numbers the entries that are not zero from `next` on. -/
def renumberFrom (next : Nat) : List UInt32 → List UInt32
  | [] => []
  | order :: rest =>
    if order = 0 then 0 :: renumberFrom next rest
    else UInt32.ofNat next :: renumberFrom (next + 1) rest

/-- A remap for the whole catalog, with its used positions numbered from one on. -/
def normalRemap (remap : List UInt32) : List UInt32 :=
  renumberFrom 1 (all.map (entryAt remap))

/-- Type codes for the whole catalog, zero where a remap uses no position. -/
def normalTypes (remap : List UInt32) (types : List UInt8) : List UInt8 :=
  all.map fun p => if entryAt remap p = 0 then 0 else entryAt types p

/-- The normal form of a record. -/
def normal (r : Record) : Record where
  inputRemap := normalRemap r.inputRemap
  outputRemap := normalRemap r.outputRemap
  inputTypes := normalTypes r.inputRemap r.inputTypes
  outputTypes := normalTypes r.outputRemap r.outputTypes
  groups := [r.table.map PackedRow.clearSentinel]

/-- A list with one entry for each position has the entries of the positions. -/
theorem map_entryAt {α : Type} [OfNat α 0] {entries : List α} (h : entries.length = count) :
    all.map (entryAt entries) = entries := by
  refine List.ext_getElem (by rw [List.length_map, length_all, h]) fun i hi hi' => ?_
  have hall : i < all.length := by rwa [List.length_map] at hi
  have hindex : all[i].index = i := index_of_atIndex? (List.getElem?_eq_getElem hall)
  rw [List.getElem_map, entryAt, hindex, List.getElem?_eq_getElem hi', Option.getD_some]

@[simp] theorem entryAt_map {α : Type} [OfNat α 0] (f : Position → α) (p : Position) :
    entryAt (all.map f) p = f p := by
  have hp : all[p.index]? = some p := atIndex?_index p
  rw [entryAt, List.getElem?_map, hp, Option.map_some, Option.getD_some]

/-! ## Normalising twice -/

@[simp] theorem length_renumberFrom (next : Nat) (orders : List UInt32) :
    (renumberFrom next orders).length = orders.length := by
  induction orders generalizing next with
  | nil => rfl
  | cons order rest ih =>
    rw [renumberFrom]
    split <;> rw [List.length_cons, List.length_cons, ih]

@[simp] theorem length_normalRemap (remap : List UInt32) : (normalRemap remap).length = count := by
  rw [normalRemap, length_renumberFrom, List.length_map, length_all]

@[simp] theorem length_normalTypes (remap : List UInt32) (types : List UInt8) :
    (normalTypes remap types).length = count := by
  rw [normalTypes, List.length_map, length_all]

theorem ofNat_ne_zero {n : Nat} (hpos : 0 < n) (hlt : n < 2 ^ 32) : UInt32.ofNat n ≠ 0 := by
  intro hzero
  have hnat := congrArg UInt32.toNat hzero
  rw [UInt32.toNat_ofNat_of_lt' hlt] at hnat
  exact Nat.ne_of_gt hpos hnat

/-- Numbering leaves those entries zero that were zero, as long as no number overflows. -/
theorem getElem?_renumberFrom_eq_zero_iff {next : Nat} {orders : List UInt32} (hpos : 0 < next)
    (hfit : next + orders.length ≤ 2 ^ 32) (i : Nat) :
    (renumberFrom next orders)[i]?.getD 0 = 0 ↔ orders[i]?.getD 0 = 0 := by
  induction orders generalizing next i with
  | nil => rfl
  | cons order rest ih =>
    rw [List.length_cons] at hfit
    rw [renumberFrom]
    split
    · next hzero =>
      subst hzero
      cases i with
      | zero => rfl
      | succ i => exact ih hpos (by omega) i
    · next hne =>
      cases i with
      | zero => simpa [hne] using ofNat_ne_zero hpos (by omega)
      | succ i => exact ih (by omega) (by omega) i

/-- Numbering again changes nothing. -/
theorem renumberFrom_renumberFrom {next : Nat} {orders : List UInt32} (hpos : 0 < next)
    (hfit : next + orders.length ≤ 2 ^ 32) :
    renumberFrom next (renumberFrom next orders) = renumberFrom next orders := by
  induction orders generalizing next with
  | nil => rfl
  | cons order rest ih =>
    rw [List.length_cons] at hfit
    by_cases horder : order = 0
    · rw [renumberFrom, if_pos horder, renumberFrom, if_pos rfl, ih hpos (by omega)]
    · have hne : UInt32.ofNat next ≠ 0 := ofNat_ne_zero hpos (by omega)
      rw [renumberFrom, if_neg horder, renumberFrom, if_neg hne, ih (by omega) (by omega)]

theorem length_entries_le (remap : List UInt32) :
    1 + (all.map (entryAt remap)).length ≤ 2 ^ 32 := by
  rw [List.length_map, length_all]
  decide

/-- A normal remap uses the same positions. -/
theorem entryAt_normalRemap_eq_zero_iff (remap : List UInt32) (p : Position) :
    entryAt (normalRemap remap) p = 0 ↔ entryAt remap p = 0 := by
  rw [← entryAt_map (entryAt remap) p]
  exact getElem?_renumberFrom_eq_zero_iff Nat.one_pos (length_entries_le remap) p.index

theorem normalRemap_normalRemap (remap : List UInt32) :
    normalRemap (normalRemap remap) = normalRemap remap := by
  rw [normalRemap, map_entryAt (length_normalRemap remap), normalRemap]
  exact renumberFrom_renumberFrom Nat.one_pos (length_entries_le remap)

theorem normalTypes_normalTypes (remap : List UInt32) (types : List UInt8) :
    normalTypes (normalRemap remap) (normalTypes remap types) = normalTypes remap types := by
  refine List.map_congr_left fun p _ => ?_
  rw [normalTypes, entryAt_map]
  simp only [entryAt_normalRemap_eq_zero_iff]
  split <;> rfl

theorem table_normal (r : Record) : r.normal.table = r.table.map PackedRow.clearSentinel :=
  List.flatten_singleton

/-- **A normal record is its own normal form.** -/
theorem normal_normal (r : Record) : r.normal.normal = r.normal := by
  have hrows : r.normal.table.map PackedRow.clearSentinel = r.normal.table := by
    rw [table_normal, List.map_map]
    exact List.map_congr_left fun row _ => PackedRow.clearSentinel_clearSentinel row
  rw [normal, hrows, table_normal]
  simp only [normal, normalRemap_normalRemap, normalTypes_normalTypes]

/-! ## Used positions -/

/-- The positions that a remap uses are those whose entries are not zero. -/
theorem mem_usedPositions_iff {remap : List UInt32} {p : Position} :
    p ∈ usedPositions remap ↔ entryAt remap p ≠ 0 := by
  have hmem : p ∈ usedPositions remap ↔
      ∃ order, (p, order) ∈ all.zip remap ∧ order ≠ 0 := by
    simp [usedPositions]
  rw [hmem]
  constructor
  · rintro ⟨order, horder, hne⟩
    obtain ⟨i, hi⟩ := List.mem_iff_getElem?.1 horder
    obtain ⟨hp, hentry⟩ := List.getElem?_zip_eq_some.1 hi
    obtain rfl : p.index = i := index_of_atIndex? hp
    rwa [entryAt, hentry, Option.getD_some]
  · intro hne
    cases hentry : remap[p.index]? with
    | none =>
      rw [entryAt, hentry] at hne
      exact absurd rfl hne
    | some order =>
      rw [entryAt, hentry, Option.getD_some] at hne
      have hp : all[p.index]? = some p := atIndex?_index p
      exact ⟨order, List.mem_iff_getElem?.2 ⟨p.index, List.getElem?_zip_eq_some.2 ⟨hp, hentry⟩⟩,
        hne⟩

/-- Used positions stand in the order of the catalog. -/
theorem pairwise_usedPositions (remap : List UInt32) :
    (usedPositions remap).Pairwise fun p q => p.index < q.index :=
  pairwise_all.sublist ((List.filter_sublist.map Prod.fst).trans (map_fst_zip_sublist all remap))

theorem sorted_usedPositions (remap : List UInt32) :
    sorted (usedPositions remap) = usedPositions remap :=
  sorted_eq_self (pairwise_usedPositions remap)

theorem usedPositions_eq_filter (remap : List UInt32) :
    usedPositions remap = all.filter fun p => entryAt remap p ≠ 0 := by
  rw [← sorted_usedPositions, sorted]
  exact List.filter_congr fun p _ => by simp only [mem_usedPositions_iff]

/-- The positions of a remap are numbered by counting the used ones up to each. -/
theorem map_countP_eq_renumberFrom (f : Position → UInt32) (n : Nat) {ps : List Position}
    (h : ps.Pairwise fun p q => p.index < q.index) :
    (ps.map fun p => if f p ≠ 0 then
      UInt32.ofNat (n + (ps.filter fun q => f q ≠ 0).countP fun q => q.index ≤ p.index) else 0) =
      renumberFrom (n + 1) (ps.map f) := by
  induction ps generalizing n with
  | nil => rfl
  | cons p ps ih =>
    obtain ⟨hfirst, hrest⟩ := List.pairwise_cons.1 h
    have hlater : (ps.filter fun q => f q ≠ 0).countP (fun q => q.index ≤ p.index) = 0 := by
      rw [List.countP_eq_zero]
      intro q hq
      simpa using hfirst q (List.mem_filter.1 hq).1
    rw [List.map_cons, List.map_cons, renumberFrom]
    by_cases hp : f p = 0
    · rw [if_pos hp, if_neg (not_not_intro hp), ← ih n hrest]
      simp [hp]
    · have hfilter : (p :: ps).filter (fun q => f q ≠ 0) = p :: ps.filter fun q => f q ≠ 0 :=
        List.filter_cons_of_pos (by simpa using hp)
      rw [if_neg hp, if_pos hp, ← ih (n + 1) hrest, hfilter, List.countP_cons, hlater]
      refine List.cons_eq_cons.2 ⟨by simp, List.map_congr_left fun q hq => ?_⟩
      have hle : p.index ≤ q.index := Nat.le_of_lt (hfirst q hq)
      rw [List.countP_cons, if_pos (decide_eq_true hle), Nat.add_right_comm, ← Nat.add_assoc]

theorem remapOf_usedPositions (remap : List UInt32) :
    remapOf (usedPositions remap) = normalRemap remap := by
  rw [normalRemap, ← map_countP_eq_renumberFrom (entryAt remap) 0 pairwise_all,
    ← usedPositions_eq_filter, remapOf]
  refine List.map_congr_left fun p _ => ?_
  simp only [mem_usedPositions_iff, Nat.zero_add]

/-! ## Saving what was loaded -/

variable {r : Record} {d : Circuit}

/-- The types that positions are paired with are those of their codes. -/
theorem eq_map_of_typed {side : RecordSide} {codes : List UInt8} {ps : List Position}
    {pairs : List (Position × PinType)} (h : typed side codes ps = .ok pairs) :
    pairs = ps.map fun p => (p, PinType.ofCode (entryAt codes p)) := by
  induction ps generalizing pairs with
  | nil =>
    cases h
    rfl
  | cons p ps ih =>
    rw [typed] at h
    split at h
    · cases h
    · next code hcode =>
      obtain ⟨rest, hrest, rfl⟩ := map_eq_ok_iff.1 h
      rw [List.map_cons, ih hrest, entryAt, hcode, Option.getD_some]

theorem eq_map_of_typedPositions {side : RecordSide} {remap : List UInt32} {codes : List UInt8}
    {pairs : List (Position × PinType)} (h : typedPositions side remap codes = .ok pairs) :
    pairs = (usedPositions remap).map fun p => (p, PinType.ofCode (entryAt codes p)) := by
  rw [typedPositions] at h
  split at h
  · exact eq_map_of_typed h
  · cases h

/-- The type codes of used positions are saved as they were. -/
theorem codesOf_usedPositions (remap : List UInt32) (codes : List UInt8) :
    codesOf ((usedPositions remap).map fun p => (p, PinType.ofCode (entryAt codes p))) =
      normalTypes remap codes := by
  have hfst : ((usedPositions remap).map fun p => (p, PinType.ofCode (entryAt codes p))).map
      Prod.fst = usedPositions remap := by
    rw [List.map_map]
    exact List.map_id _
  refine List.map_congr_left fun p _ => ?_
  rw [← codeOf]
  by_cases hp : entryAt remap p = 0
  · rw [if_pos hp, codeOf_of_notMem]
    rw [hfst, mem_usedPositions_iff]
    exact not_not_intro hp
  · have hmem : (p, PinType.ofCode (entryAt codes p)) ∈
        (usedPositions remap).map fun p => (p, PinType.ofCode (entryAt codes p)) :=
      List.mem_map_of_mem (mem_usedPositions_iff.2 hp)
    have hcode := codeOf_of_mem (by rw [hfst]; exact nodup_usedPositions remap) hmem
    rw [if_neg hp, hcode, PinType.code_ofCode]

/-- The pins of the circuit of a record. -/
theorem pins_of_circuit (h : r.circuit = .ok d) :
    (d.inputs.map fun pin => (pin.position, pin.type)) =
        (usedPositions r.inputRemap).map (fun p => (p, PinType.ofCode (entryAt r.inputTypes p))) ∧
      (d.outputs.map fun pin => (pin.position, pin.type)) =
        (usedPositions r.outputRemap).map
          fun p => (p, PinType.ofCode (entryAt r.outputTypes p)) := by
  obtain ⟨ins, outs, hins, houts, -, hinPins, houtPins⟩ := circuit_eq_ok_iff.1 h
  have hpairs := congrArg (List.map fun e => (e.1, e.2.1)) houtPins
  rw [map_lookUpParts, List.map_map] at hpairs
  exact ⟨hinPins.trans (eq_map_of_typedPositions hins),
    hpairs.trans (eq_map_of_typedPositions houts)⟩

theorem inputPositions_of_circuit (h : r.circuit = .ok d) :
    d.inputPositions = usedPositions r.inputRemap := by
  have hfst := congrArg (List.map Prod.fst) (pins_of_circuit h).1
  rw [List.map_map, List.map_map] at hfst
  exact hfst.trans (List.map_id _)

theorem outputPositions_of_circuit (h : r.circuit = .ok d) :
    d.outputPositions = usedPositions r.outputRemap := by
  have hfst := congrArg (List.map Prod.fst) (pins_of_circuit h).2
  rw [List.map_map, List.map_map] at hfst
  exact hfst.trans (List.map_id _)

/-- Gathering the outputs of a row in their own order clears its sentinel. -/
theorem gatherOutputs_catalogOrder {qs : List Position} (hsorted : sorted qs = qs)
    (h : qs.Nodup) {row : PackedRow} (hrow : row.fits qs.length = true) :
    gatherOutputs (catalogOrder qs) row = row.clearSentinel := by
  refine PackedRow.eq_clearSentinel (PackedRow.sentinel_pack _) fun k => ?_
  rcases Nat.lt_or_ge k qs.length with hk | hk
  · have hk' : k < (sorted qs).length := by rwa [hsorted]
    have hplace : qs.idxOf (sorted qs)[k] = k := by
      simp only [hsorted]
      exact List.Nodup.idxOf_getElem h k hk
    rw [output_gatherOutputs h row hk', hplace]
  · rw [PackedRow.fits_iff.1 (fits_gatherOutputs h row) k hk, PackedRow.fits_iff.1 hrow k hk]

/-- The rows of a circuit whose pins are already in the order of the catalog stay where they are. -/
theorem rowsOf_catalogOrder {c : Circuit} {table : PackedTable}
    (hins : sorted c.inputPositions = c.inputPositions)
    (houts : sorted c.outputPositions = c.outputPositions)
    (h : checkTable c.inputs.length c.outputs.length table = .ok ()) :
    rowsOf (catalogOrder c.inputPositions) (catalogOrder c.outputPositions) table =
      table.map PackedRow.clearSentinel := by
  obtain ⟨hcount, hfits⟩ := checkTable_eq_ok_iff.1 h
  have hnodup : c.inputPositions.Nodup := c.inputs_nodup
  have hlength : table.length = Assignment.count c.inputPositions.length := by
    rw [c.length_inputPositions, hcount]
  refine List.ext_getElem? fun j => ?_
  rcases Nat.lt_or_ge j table.length with hj | hj
  · obtain ⟨v, hv⟩ := Circuit.exists_assignmentOf (Assignment.length_ofIndex c.inputs.length j)
    have hrow : Assignment.index (c.inputPositions.map v) = j := by
      rw [hcount] at hj
      rw [← Circuit.assignmentOf, ← hv, Assignment.index_ofIndex_of_lt hj]
    have hmoved := getElem?_rowsOf hnodup (catalogOrder c.outputPositions) hlength v
    rw [hins, hrow] at hmoved
    have hfitsRow : table[j].fits c.outputPositions.length = true := by
      rw [c.length_outputPositions]
      exact hfits _ (List.getElem_mem hj)
    rw [hmoved, List.getElem?_map, List.getElem?_eq_getElem hj, Option.map_some, Option.map_some,
      gatherOutputs_catalogOrder houts c.outputs_nodup hfitsRow]
  · rw [List.getElem?_eq_none, List.getElem?_eq_none]
    · rwa [List.length_map]
    · rwa [rowsOf, List.length_map, List.length_range]

/-- **Saving what was loaded** gives the normal form. -/
theorem stored_table_eq_normal (h : r.circuit = .ok d) : stored d r.table = r.normal := by
  obtain ⟨hins, houts⟩ := pins_of_circuit h
  have hinSorted : sorted d.inputPositions = d.inputPositions := by
    rw [inputPositions_of_circuit h, sorted_usedPositions]
  have houtSorted : sorted d.outputPositions = d.outputPositions := by
    rw [outputPositions_of_circuit h, sorted_usedPositions]
  rw [stored, rowsOf_catalogOrder hinSorted houtSorted (checkTable_of_circuit h), hins, houts,
    inputPositions_of_circuit h, outputPositions_of_circuit h, remapOf_usedPositions,
    remapOf_usedPositions, codesOf_usedPositions, codesOf_usedPositions, normal]

/-- Compiling the circuit of a record gives the rows of the record with clear sentinels. -/
theorem compile?_of_circuit (h : r.circuit = .ok d) :
    d.compile? = some (r.table.map PackedRow.clearSentinel) := by
  have hfits := (checkTable_eq_ok_iff.1 (checkTable_of_circuit h)).2
  rw [Circuit.compile?_of_entries? (entries?_of_circuit h), Option.some.injEq]
  apply List.ext_getElem
  · simp
  · intro j hj hj'
    have hlt : j < r.table.length := by simpa using hj'
    have hrow := PackedRow.pack_unpack (hfits r.table[j] (List.getElem_mem hlt)) d.length_outputs_lt
    simp [hrow]

/-- The normal form of a record with a circuit is saved from that circuit. -/
theorem ofTable_table_of_circuit (h : r.circuit = .ok d) : ofTable d r.table = .ok r.normal :=
  ofTable_eq_ok_iff.2 ⟨checkTable_of_circuit h, (stored_table_eq_normal h).symm⟩

/-- The normal form of a record with a circuit has a circuit. -/
theorem exists_circuit_normal (h : r.circuit = .ok d) : ∃ e, r.normal.circuit = .ok e := by
  obtain ⟨e, he, -⟩ := exists_circuit_stored (checkTable_of_circuit h)
  rw [stored_table_eq_normal h] at he
  exact ⟨e, he⟩

end Record

/-- **Loading and saving normalises, once.**  The circuit of a record passes the check, and its
table has the rows of the record with clear sentinels.  Saving the circuit with the table of the
record gives the normal form: four lists for the whole catalog, in which used positions are numbered
from one on and have their type codes, and all rows in one group with clear sentinels.  The normal
form can be loaded, and saving it again gives the normal form. -/
theorem normal_of_circuit {r : Record} {d : Circuit} (h : r.circuit = .ok d) :
    d.check = .ok () ∧ d.compile? = some (r.table.map PackedRow.clearSentinel) ∧
      Record.ofTable d r.table = .ok r.normal ∧
      (r.normal.inputRemap.length = count ∧ r.normal.outputRemap.length = count ∧
        r.normal.inputTypes.length = count ∧ r.normal.outputTypes.length = count) ∧
      ∃ e, r.normal.circuit = .ok e ∧ Record.ofTable e r.normal.table = .ok r.normal := by
  obtain ⟨e, he⟩ := Record.exists_circuit_normal h
  have hagain := Record.ofTable_table_of_circuit he
  rw [Record.normal_normal] at hagain
  exact ⟨Record.check_of_circuit h, Record.compile?_of_circuit h,
    Record.ofTable_table_of_circuit h,
    ⟨Record.length_normalRemap _, Record.length_normalRemap _, Record.length_normalTypes _ _,
      Record.length_normalTypes _ _⟩, e, he, hagain⟩

/-- A record with remaps that stop early and do not count, more type codes than positions, an empty
group and set sentinels. -/
def unruly : Record where
  inputRemap := [0, 7, 0, 7]
  outputRemap := [500, 0]
  inputTypes := List.replicate 40 6
  outputTypes := [9]
  groups := [[1, 2], [], [3], [0]]

/-- That record, loaded and saved. -/
theorem normal_of_circuit_unruly :
    ∃ d, unruly.circuit = .ok d ∧ d.compile? = some [0, 2, 2, 0] ∧
      Record.ofTable d unruly.table =
        .ok ⟨[0, 1, 0, 2] ++ List.replicate 31 0, 1 :: List.replicate 34 0,
          [0, 6, 0, 6] ++ List.replicate 31 0, 9 :: List.replicate 34 0, [[0, 2, 2, 0]]⟩ := by
  obtain ⟨d, hd⟩ : ∃ d, unruly.circuit = .ok d := ⟨_, rfl⟩
  obtain ⟨-, hcompile, hsaved, -⟩ := normal_of_circuit hd
  have htable : unruly.table.map PackedRow.clearSentinel = [0, 2, 2, 0] := by decide
  have hnormal : unruly.normal =
      ⟨[0, 1, 0, 2] ++ List.replicate 31 0, 1 :: List.replicate 34 0,
        [0, 6, 0, 6] ++ List.replicate 31 0, 9 :: List.replicate 34 0, [[0, 2, 2, 0]]⟩ := by decide
  rw [htable] at hcompile
  rw [hnormal] at hsaved
  exact ⟨d, hd, hcompile, hsaved⟩

end VoxelLogic
