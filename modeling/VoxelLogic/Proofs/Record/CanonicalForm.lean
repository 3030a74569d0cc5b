import VoxelLogic.Proofs.Record.OfTable
import Mathlib.Data.List.Nodup

/-!
# The record of a circuit as a canonical form

Circuits that describe one module may list its pins in different orders and write its functions in
different ways.  Their records are the same, and records of circuits that describe different modules
differ.

* `Circuit.SameModule`: two circuits describe one module.
* `stored_congr`: they have one record.  Each part of a record is a function of what the circuits
  have in common: the remaps and type codes of the sets of pins (`remapOf_congr`, `codeOf_congr`),
  the rows of the values by position (`getElem?_table_stored`).
* `sameModule_stored`: a record is read back as a circuit of the module it is made of, so it tells
  what module that is (`sameModule_of_stored_eq`).
* `ofTable_compile_eq_iff`: both directions together.
-/

namespace VoxelLogic

open Position

/-- Two circuits have the same pins with the same type codes, and every output position has the same
value in both when the positions have given values. -/
structure Circuit.SameModule (c d : Circuit) : Prop where
  inputs : ∀ pin, pin ∈ c.inputCodes ↔ pin ∈ d.inputCodes
  outputs : ∀ pin, pin ∈ c.outputCodes ↔ pin ∈ d.outputCodes
  values : ∀ (v : Position → Bool), ∀ p ∈ c.outputPositions, c.valueAt? v p = d.valueAt? v p

/-- Pins with distinct positions are told by the set of their positions and type codes. -/
theorem codes_perm {xs ys : List (Position × UInt8)} (hx : (xs.map Prod.fst).Nodup)
    (hy : (ys.map Prod.fst).Nodup) (h : ∀ pin, pin ∈ xs ↔ pin ∈ ys) : xs.Perm ys :=
  (List.perm_ext_iff_of_nodup (List.Nodup.of_map Prod.fst hx) (List.Nodup.of_map Prod.fst hy)).2 h

namespace Circuit.SameModule

variable {c d : Circuit}

theorem inputCodes_perm (h : c.SameModule d) : c.inputCodes.Perm d.inputCodes := by
  refine codes_perm ?_ ?_ h.inputs
  · rw [map_fst_inputCodes]
    exact c.inputs_nodup
  · rw [map_fst_inputCodes]
    exact d.inputs_nodup

theorem outputCodes_perm (h : c.SameModule d) : c.outputCodes.Perm d.outputCodes := by
  refine codes_perm ?_ ?_ h.outputs
  · rw [map_fst_outputCodes]
    exact c.outputs_nodup
  · rw [map_fst_outputCodes]
    exact d.outputs_nodup

theorem inputPositions_perm (h : c.SameModule d) : c.inputPositions.Perm d.inputPositions := by
  have hperm := h.inputCodes_perm.map Prod.fst
  rwa [map_fst_inputCodes, map_fst_inputCodes] at hperm

theorem outputPositions_perm (h : c.SameModule d) : c.outputPositions.Perm d.outputPositions := by
  have hperm := h.outputCodes_perm.map Prod.fst
  rwa [map_fst_outputCodes, map_fst_outputCodes] at hperm

theorem symm (h : c.SameModule d) : d.SameModule c :=
  ⟨fun pin => (h.inputs pin).symm, fun pin => (h.outputs pin).symm, fun v p hp =>
    (h.values v p (h.outputPositions_perm.mem_iff.2 hp)).symm⟩

theorem trans {e : Circuit} (h : c.SameModule d) (h' : d.SameModule e) : c.SameModule e :=
  ⟨fun pin => (h.inputs pin).trans (h'.inputs pin), fun pin => (h.outputs pin).trans
    (h'.outputs pin), fun v p hp =>
    (h.values v p hp).trans (h'.values v p (h.outputPositions_perm.mem_iff.1 hp))⟩

end Circuit.SameModule

namespace Record

/-! ## Pins -/

theorem remapOf_congr {ps qs : List Position} (h : ps.Perm qs) : remapOf ps = remapOf qs := by
  refine List.map_congr_left fun p _ => ?_
  rw [h.countP_eq]
  simp only [h.mem_iff]

theorem codeOf_of_notMem {pins : List (Position × PinType)} {p : Position}
    (h : p ∉ pins.map Prod.fst) : codeOf pins p = 0 := by
  have hnone : pins.lookup p = none := by
    rw [List.lookup_eq_none_iff]
    intro e he
    exact bne_iff_ne.2 fun heq => h (List.mem_map.2 ⟨e, he, heq.symm⟩)
  rw [codeOf, hnone, Option.map_none, Option.getD_none]

/-- Pins with the same positions and type codes give every position the same type code. -/
theorem codeOf_congr {xs ys : List (Position × PinType)} (hx : (xs.map Prod.fst).Nodup)
    (hy : (ys.map Prod.fst).Nodup)
    (h : (xs.map fun e => (e.1, e.2.code)).Perm (ys.map fun e => (e.1, e.2.code)))
    (p : Position) : codeOf xs p = codeOf ys p := by
  have hfst := h.map Prod.fst
  rw [List.map_map, List.map_map] at hfst
  by_cases hp : p ∈ xs.map Prod.fst
  · obtain ⟨e, he, rfl⟩ := List.mem_map.1 hp
    have hmem : (e.1, e.2.code) ∈ ys.map fun e => (e.1, e.2.code) :=
      h.mem_iff.1 (List.mem_map.2 ⟨e, he, rfl⟩)
    obtain ⟨e', he', heq⟩ := List.mem_map.1 hmem
    obtain ⟨hposition, hcode⟩ := Prod.mk.inj heq
    rw [codeOf_of_mem hx he, ← hcode, ← codeOf_of_mem hy he', hposition]
  · have hp' : p ∉ ys.map Prod.fst := fun hmem => hp (hfst.mem_iff.2 hmem)
    rw [codeOf_of_notMem hp, codeOf_of_notMem hp']

theorem codesOf_congr {xs ys : List (Position × PinType)} (hx : (xs.map Prod.fst).Nodup)
    (hy : (ys.map Prod.fst).Nodup)
    (h : (xs.map fun e => (e.1, e.2.code)).Perm (ys.map fun e => (e.1, e.2.code))) :
    codesOf xs = codesOf ys :=
  List.map_congr_left fun p _ => codeOf_congr hx hy h p

/-! ## Rows -/

variable {c d : Circuit} {t s : PackedTable}

/-- The row that sorted inputs select in the record of a circuit stores the values of the sorted
outputs. -/
theorem getElem?_table_stored (h : c.compile? = some t) (v : Position → Bool) :
    (stored c t).table[Assignment.index ((sorted c.inputPositions).map v)]? =
      some (PackedRow.pack
        ((sorted c.outputPositions).map fun p => (c.valueAt? v p).getD false)) := by
  have hinNodup : c.inputPositions.Nodup := c.inputs_nodup
  have hlen : t.length = Assignment.count c.inputPositions.length := by
    rw [c.length_inputPositions, Circuit.length_of_compile? h]
  obtain ⟨row, hrow, hout⟩ := Circuit.exists_row_of_compile? h (c.length_assignmentOf v)
  have hrow' : t[Assignment.index (c.inputPositions.map v)]? = some row := hrow
  rw [table_stored, getElem?_rowsOf hinNodup _ hlen, hrow', Option.map_some, gatherOutputs,
    catalogOrder_eq_map, List.map_map]
  congr 2
  refine List.map_congr_left fun p hp => ?_
  have hmem : p ∈ c.outputPositions := mem_sorted.1 hp
  have hval := hout _ (List.idxOf_lt_length_of_mem hmem)
  rw [List.getElem_idxOf] at hval
  rw [Function.comp_apply, Circuit.valueAt?, hval, Option.getD_some]

theorem length_table_stored (h : c.compile? = some t) :
    (stored c t).table.length = Assignment.count c.inputs.length :=
  (checkTable_eq_ok_iff.1 (checkTable_stored (Circuit.checkTable_of_compile? h))).1

/-- Circuits of one module have records with the same rows. -/
theorem table_stored_congr (hc : c.compile? = some t) (hd : d.compile? = some s)
    (h : c.SameModule d) : (stored c t).table = (stored d s).table := by
  have hins : sorted c.inputPositions = sorted d.inputPositions :=
    sorted_congr fun _ => h.inputPositions_perm.mem_iff
  have houts : sorted c.outputPositions = sorted d.outputPositions :=
    sorted_congr fun _ => h.outputPositions_perm.mem_iff
  have hlen : (stored c t).table.length = (stored d s).table.length := by
    rw [length_table_stored hc, length_table_stored hd, ← c.length_inputPositions,
      ← d.length_inputPositions, h.inputPositions_perm.length_eq]
  -- every row is selected by the values of some positions
  obtain ⟨e, he, -⟩ := exists_circuit_stored (Circuit.checkTable_of_compile? hc)
  obtain ⟨heins, -⟩ := circuit_stored (Circuit.checkTable_of_compile? hc) he
  refine List.ext_getElem? fun j => ?_
  rcases Nat.lt_or_ge j (stored c t).table.length with hj | hj
  · rw [length_table_of_circuit he] at hj
    obtain ⟨v, hv⟩ := Circuit.exists_assignmentOf (Assignment.length_ofIndex e.inputs.length j)
    have hrow : j = Assignment.index ((sorted c.inputPositions).map v) := by
      rw [← heins, ← Circuit.assignmentOf, ← hv, Assignment.index_ofIndex_of_lt hj]
    rw [hrow, getElem?_table_stored hc v, hins, getElem?_table_stored hd v, ← houts]
    congr 2
    refine List.map_congr_left fun p hp => ?_
    rw [h.values v p (mem_sorted.1 hp)]
  · rw [List.getElem?_eq_none hj, List.getElem?_eq_none (hlen ▸ hj)]

/-- Circuits of one module have one record. -/
theorem stored_congr (hc : c.compile? = some t) (hd : d.compile? = some s) (h : c.SameModule d) :
    stored c t = stored d s := by
  have hgroups : (stored c t).groups = (stored d s).groups := by
    have htable := table_stored_congr hc hd h
    rw [table_stored, table_stored] at htable
    rw [stored, stored, htable]
  have hinTypes : (stored c t).inputTypes = (stored d s).inputTypes := by
    refine codesOf_congr ?_ ?_ ?_
    · rw [List.map_map]
      exact c.inputs_nodup
    · rw [List.map_map]
      exact d.inputs_nodup
    · rw [List.map_map, List.map_map]
      exact h.inputCodes_perm
  have houtTypes : (stored c t).outputTypes = (stored d s).outputTypes := by
    refine codesOf_congr ?_ ?_ ?_
    · rw [List.map_map]
      exact c.outputs_nodup
    · rw [List.map_map]
      exact d.outputs_nodup
    · rw [List.map_map, List.map_map]
      exact h.outputCodes_perm
  calc stored c t
      = ⟨remapOf c.inputPositions, remapOf c.outputPositions, (stored c t).inputTypes,
          (stored c t).outputTypes, (stored c t).groups⟩ := rfl
    _ = stored d s := by
      rw [remapOf_congr h.inputPositions_perm, remapOf_congr h.outputPositions_perm, hinTypes,
        houtTypes, hgroups]
      rfl

/-- The circuit of a record describes the module of the circuit that the record was made of. -/
theorem sameModule_stored (hc : c.compile? = some t) (hd : (stored c t).circuit = .ok d) :
    c.SameModule d := by
  obtain ⟨-, hinputs, -, houtputs, -⟩ := circuit_stored (Circuit.checkTable_of_compile? hc) hd
  exact ⟨fun _ => hinputs.symm.mem_iff, fun _ => houtputs.symm.mem_iff,
    fun v p _ => (valueAt?_stored hc hd v p).symm⟩

/-- A record of a circuit tells what module the circuit describes. -/
theorem sameModule_of_stored_eq (hc : c.compile? = some t) (hd : d.compile? = some s)
    (h : stored c t = stored d s) : c.SameModule d := by
  obtain ⟨e, he, -⟩ := exists_circuit_stored (Circuit.checkTable_of_compile? hc)
  have he' : (stored d s).circuit = .ok e := h ▸ he
  exact (sameModule_stored hc he).trans (sameModule_stored hd he').symm

end Record

/-- **The record of a circuit is a canonical form.**  Circuits whose outputs have values everywhere
can be compiled and stored, and their records are equal exactly if they describe one module. -/
theorem ofTable_compile_eq_iff {c d : Circuit} (hc : c.IsTotal) (hd : d.IsTotal) :
    ∃ t s r q, c.compile? = some t ∧ d.compile? = some s ∧
      Record.ofTable c t = .ok r ∧ Record.ofTable d s = .ok q ∧
      (r = q ↔
        (∀ pin, pin ∈ c.inputCodes ↔ pin ∈ d.inputCodes) ∧
        (∀ pin, pin ∈ c.outputCodes ↔ pin ∈ d.outputCodes) ∧
        ∀ (v : Position → Bool), ∀ p ∈ c.outputPositions, c.valueAt? v p = d.valueAt? v p) := by
  obtain ⟨t, ht⟩ := Circuit.isTotal_iff.1 hc
  obtain ⟨s, hs⟩ := Circuit.isTotal_iff.1 hd
  refine ⟨t, s, Record.stored c t, Record.stored d s, ht, hs,
    Record.ofTable_eq_ok_iff.2 ⟨Circuit.checkTable_of_compile? ht, rfl⟩,
    Record.ofTable_eq_ok_iff.2 ⟨Circuit.checkTable_of_compile? hs, rfl⟩, ?_⟩
  constructor
  · intro h
    have hsame := Record.sameModule_of_stored_eq ht hs h
    exact ⟨hsame.inputs, hsame.outputs, hsame.values⟩
  · rintro ⟨hins, houts, hvalues⟩
    exact Record.stored_congr ht hs ⟨hins, houts, hvalues⟩

/-- The conjunction of the input at the centre and the first slot, shown on top. -/
def straight : Circuit where
  inputs := [⟨.site .middle .middle .middle, .other 5, rfl⟩, .ofPower (.slot ⟨0, by decide⟩)]
  outputs := [⟨.site .middle .top .middle, .power, .formula (.gate .and [.input 0, .input 1]), rfl⟩]
  inputs_nodup := firstRepeat?_eq_none_iff.1 rfl
  outputs_nodup := firstRepeat?_eq_none_iff.1 rfl

/-- The same module with its inputs the other way round and another formula. -/
def crossed : Circuit where
  inputs := [.ofPower (.slot ⟨0, by decide⟩), ⟨.site .middle .middle .middle, .other 5, rfl⟩]
  outputs := [⟨.site .middle .top .middle, .other 0,
    .formula (.not (.mux (.input 1) (.not (.input 0)) (.const true))), rfl⟩]
  inputs_nodup := firstRepeat?_eq_none_iff.1 rfl
  outputs_nodup := firstRepeat?_eq_none_iff.1 rfl

/-- Both circuits have one record. -/
theorem ofTable_straight_eq_crossed :
    ∃ t s r, straight.compile? = some t ∧ crossed.compile? = some s ∧
      Record.ofTable straight t = .ok r ∧ Record.ofTable crossed s = .ok r := by
  have hstraight : straight.IsTotal := Circuit.isTotal_iff.2 ⟨[0, 0, 0, 2], by decide⟩
  have hcrossed : crossed.IsTotal := Circuit.isTotal_iff.2 ⟨[0, 0, 0, 2], by decide⟩
  obtain ⟨t, s, r, q, ht, hs, hr, hq, hiff⟩ := ofTable_compile_eq_iff hstraight hcrossed
  have heq : r = q := by
    refine hiff.2 ⟨fun pin => ?_, fun pin => ?_, fun v p hp => ?_⟩
    · exact (List.Perm.swap _ _ []).mem_iff
    · exact Iff.rfl
    · obtain rfl : p = .site .middle .top .middle := List.mem_singleton.1 hp
      change straight.outputAt? [v (.site .middle .middle .middle), v (.slot ⟨0, by decide⟩)] _ =
        crossed.outputAt? [v (.slot ⟨0, by decide⟩), v (.site .middle .middle .middle)] _
      cases v (.site .middle .middle .middle) <;> cases v (.slot ⟨0, by decide⟩) <;> rfl
  exact ⟨t, s, r, ht, hs, hr, heq ▸ hq⟩

end VoxelLogic
