import VoxelLogic.Proofs.Record.Shape

/-!
# What the meaning of a record does not depend on

A record tells which positions are used, what type codes they have and which rows the table has.  It
also holds the numbers that a remap gives to the used positions, zeros behind the last of them, type
codes of positions that are not used and the limits of the groups of rows.  Nothing of this is ever
looked at, neither by a record that is accepted nor by one that is refused.

* `Record.Agrees`: two records tell the same.
* `usedPositions_congr`, `typed_congr`: the two scans of a record, of its remaps and of its types.
* `circuit_eq_of_agrees`: records that agree have the same pins, the same table and the same
  circuit, or are refused with the same error.
-/

namespace VoxelLogic

open Position

namespace Record

/-- Two records whose remaps do not go on beyond the catalog use the same indices, with the same
type codes there or with none, and hold the same rows. -/
structure Agrees (r s : Record) : Prop where
  length_remap_le : ∀ side, (r.remap side).length ≤ 35 ∧ (s.remap side).length ≤ 35
  uses_iff : ∀ side i, r.Uses side i ↔ s.Uses side i
  types_eq : ∀ side i, r.Uses side i → (r.types side)[i]? = (s.types side)[i]?
  rows_eq : r.groups.flatten = s.groups.flatten

/-- Remaps with zeros at the same positions use the same positions. -/
theorem usedPositions_congr {remap other : List UInt32}
    (h : ∀ p, entryAt remap p = 0 ↔ entryAt other p = 0) :
    usedPositions remap = usedPositions other := by
  rw [usedPositions_eq_filter, usedPositions_eq_filter]
  exact List.filter_congr fun p _ => by simp only [ne_eq, h p]

/-- Positions are paired alike with codes that are the same at these positions, up to the first that
has none. -/
theorem typed_congr (side : RecordSide) {codes others : List UInt8} {ps : List Position}
    (h : ∀ p ∈ ps, codes[p.index]? = others[p.index]?) :
    typed side codes ps = typed side others ps := by
  induction ps with
  | nil => rfl
  | cons p ps ih =>
    rw [List.forall_mem_cons] at h
    rw [typed, typed, h.1, ih h.2]

namespace Agrees

variable {r s : Record}

theorem usedPositions_eq (h : r.Agrees s) (side : RecordSide) :
    usedPositions (r.remap side) = usedPositions (s.remap side) := by
  refine usedPositions_congr fun p => not_iff_not.1 ?_
  have hp := h.uses_iff side p.index
  rwa [uses_index_iff, uses_index_iff, mem_usedPositions_iff, mem_usedPositions_iff] at hp

/-- The used positions have the same types, or the same one has none. -/
theorem typedPositions_eq (h : r.Agrees s) (side : RecordSide) :
    typedPositions side (r.remap side) (r.types side) =
      typedPositions side (s.remap side) (s.types side) := by
  have hr : (r.remap side).length ≤ count := (h.length_remap_le side).1
  have hs : (s.remap side).length ≤ count := (h.length_remap_le side).2
  have htyped : typed side (r.types side) (usedPositions (r.remap side)) =
      typed side (s.types side) (usedPositions (r.remap side)) :=
    typed_congr side fun p hp => h.types_eq side p.index (uses_index_iff.2 hp)
  rw [typedPositions, typedPositions, if_pos hr, if_pos hs, htyped, h.usedPositions_eq side]

theorem inputs_eq (h : r.Agrees s) : r.inputs = s.inputs :=
  congrArg (Except.bind · makeInputs) (h.typedPositions_eq .input)

theorem outputs_eq (h : r.Agrees s) : r.outputs = s.outputs :=
  h.typedPositions_eq .output

theorem table_eq (h : r.Agrees s) : r.table = s.table :=
  h.rows_eq

end Agrees

end Record

/-- **What the meaning of a record does not depend on.**  Records that use the same positions with
the same type codes, and that hold the same rows, have the same inputs, the same outputs, the same
table and the same circuit.  Where one of them is refused, the other is refused with the same
error. -/
theorem circuit_eq_of_agrees {r s : Record} (h : r.Agrees s) :
    r.inputs = s.inputs ∧ r.outputs = s.outputs ∧ r.table = s.table ∧ r.circuit = s.circuit := by
  refine ⟨h.inputs_eq, h.outputs_eq, h.table_eq, ?_⟩
  rw [Record.circuit, Record.circuit, h.inputs_eq, h.outputs_eq, h.table_eq]

/-- A record that agrees with `unruly`: its remaps count and go on beyond the used positions, it has
other type codes where no position is used, and its rows are in other groups. -/
def orderly : Record where
  inputRemap := [0, 1, 0, 2, 0, 0]
  outputRemap := [1]
  inputTypes := [0, 6, 200, 6]
  outputTypes := [9, 30]
  groups := [[1], [2, 3, 0]]

/-- The two records have one circuit. -/
theorem circuit_unruly_eq_orderly :
    unruly.Agrees orderly ∧ ∃ d, unruly.circuit = .ok d ∧ orderly.circuit = .ok d := by
  have hagrees : unruly.Agrees orderly := by
    constructor
    case length_remap_le => rintro (_ | _) <;> decide
    case uses_iff =>
      rintro (_ | _) (_ | _ | _ | _ | _ | _ | i) <;>
        simp [Record.Uses, Record.remap, unruly, orderly]
    case types_eq =>
      rintro (_ | _) (_ | _ | _ | _ | i) <;>
        simp [Record.Uses, Record.remap, Record.types, unruly, orderly]
    case rows_eq => rfl
  obtain ⟨d, hd⟩ : ∃ d, unruly.circuit = .ok d := ⟨_, rfl⟩
  obtain ⟨-, -, -, hcircuit⟩ := circuit_eq_of_agrees hagrees
  exact ⟨hagrees, d, hd, hcircuit ▸ hd⟩

end VoxelLogic
