import VoxelLogic.Proofs.Record.OfTable

/-!
# Circuits through records

A circuit and a packed table make a record, and the record is read back as a circuit whose outputs
look up its rows.  The pins come back in the order of the catalog with their type codes, and the bit
of the table for an output comes back at its position: the two orders in which the record moves rows
and bits are undone by the order in which it is read.

* `Circuit.IsSortedOf`: the pins of a circuit in the order of the catalog.
* `roundTrip_ofTable`: the round trip, for every table that is accepted.
* `rotated`: a circuit for which none of the orders is its own inverse.
-/

namespace VoxelLogic

/-- The circuit `d` lists the pins of `c`, with the same type codes, in the order of the catalog. -/
structure Circuit.IsSortedOf (d c : Circuit) : Prop where
  inputs_perm : d.inputCodes.Perm c.inputCodes
  outputs_perm : d.outputCodes.Perm c.outputCodes
  inputs_sorted : d.inputPositions.Pairwise fun p q => p.index < q.index
  outputs_sorted : d.outputPositions.Pairwise fun p q => p.index < q.index

namespace Record

variable {c d : Circuit} {table : PackedTable}

theorem isSortedOf_stored (h : checkTable c.inputs.length c.outputs.length table = .ok ())
    (hd : (stored c table).circuit = .ok d) : d.IsSortedOf c := by
  obtain ⟨hins, hinCodes, houts, houtCodes, -⟩ := circuit_stored h hd
  exact ⟨hinCodes, houtCodes, hins ▸ Position.pairwise_sorted _,
    houts ▸ Position.pairwise_sorted _⟩

/-- Assignments of the two circuits that agree at every position select the row of the table and the
row of the record that hold the same outputs. -/
theorem outputAt?_stored (h : checkTable c.inputs.length c.outputs.length table = .ok ())
    (hd : (stored c table).circuit = .ok d) {a b : Assignment} (ha : a.length = c.inputs.length)
    (hb : b.length = d.inputs.length)
    (hab : ∀ p ∈ d.inputPositions, d.inputAt? b p = c.inputAt? a p) {k : Nat} {p : Position}
    (hk : c.outputPositions[k]? = some p) :
    ∃ row, table[a.index]? = some row ∧ d.outputAt? b p = some (row.output k) := by
  obtain ⟨hins, -, -, -, hvalue⟩ := circuit_stored h hd
  obtain ⟨v, rfl⟩ := Circuit.exists_assignmentOf ha
  have hbv : b = d.assignmentOf v := by
    refine Circuit.eq_assignmentOf hb fun p hp => ?_
    have hp' : p ∈ c.inputPositions := by rwa [hins, Position.mem_sorted] at hp
    rw [hab p hp, Circuit.inputAt?_assignmentOf hp']
  obtain ⟨hlt, rfl⟩ := List.getElem?_eq_some_iff.1 hk
  have hrow : (c.assignmentOf v).index < table.length := by
    rw [(checkTable_eq_ok_iff.1 h).1]
    exact Assignment.index_lt_of_length ha
  refine ⟨table[(c.assignmentOf v).index], List.getElem?_eq_getElem hrow, ?_⟩
  rw [hbv, ← Circuit.valueAt?, hvalue v k hlt, List.getElem?_eq_getElem hrow, Option.map_some]

end Record

/-- **Circuits through records.**  A table that cannot be decoded for a circuit is refused with the
same error.  For any other table the record can be made and read back: the pins come back sorted,
and when every input has the value of its position, the output at the position of output `k` is bit
`k + 1` of the row that the inputs of the circuit select.  The table of the circuit itself comes
back as a circuit that computes the same. -/
theorem roundTrip_ofTable (c : Circuit) (table : PackedTable) :
    (∀ e, decodeEntries c.inputs.length c.outputs.length table = .error e →
      Record.ofTable c table = .error e) ∧
    (∀ entries, decodeEntries c.inputs.length c.outputs.length table = .ok entries →
      ∃ r d, Record.ofTable c table = .ok r ∧ r.circuit = .ok d ∧ d.IsSortedOf c ∧
        ∀ a b : Assignment, a.length = c.inputs.length → b.length = d.inputs.length →
          (∀ p ∈ d.inputPositions, d.inputAt? b p = c.inputAt? a p) →
          ∀ (k : Nat) (p : Position), c.outputPositions[k]? = some p →
            ∃ row, table[a.index]? = some row ∧
              d.outputAt? b p = some (row.getLsbD (k + 1))) ∧
    (c.compile? = some table →
      ∃ r d, Record.ofTable c table = .ok r ∧ r.circuit = .ok d ∧ d.IsSortedOf c ∧
        ∀ (v : Position → Bool) (p : Position), d.valueAt? v p = c.valueAt? v p) := by
  refine ⟨fun e he => ?_, fun entries hentries => ?_, fun hcompile => ?_⟩
  · exact map_eq_error_iff.2 (decodeEntries_eq_error_iff.1 he)
  · have hcheck := checkTable_of_decodeEntries hentries
    obtain ⟨d, hd, -⟩ := Record.exists_circuit_stored hcheck
    exact ⟨_, d, Record.ofTable_eq_ok_iff.2 ⟨hcheck, rfl⟩, hd, Record.isSortedOf_stored hcheck hd,
      fun a b ha hb hab k p hk => Record.outputAt?_stored hcheck hd ha hb hab hk⟩
  · have hcheck := Circuit.checkTable_of_compile? hcompile
    obtain ⟨d, hd, -⟩ := Record.exists_circuit_stored hcheck
    exact ⟨_, d, Record.ofTable_eq_ok_iff.2 ⟨hcheck, rfl⟩, hd, Record.isSortedOf_stored hcheck hd,
      Record.valueAt?_stored hcompile hd⟩

/-! ## Orders that are not their own inverse -/

/-- A circuit whose inputs and outputs stand in orders that differ from their inverses, so a record
that moved rows or bits the other way would have another circuit. -/
def rotated : Circuit where
  inputs := [.ofPower (.site .middle .top .middle), .ofPower (.slot ⟨2, by decide⟩),
    ⟨.site .front .down .left, .other 7, rfl⟩]
  outputs := [⟨.slot ⟨1, by decide⟩, .power, .formula (.input 0), rfl⟩,
    ⟨.site .front .down .middle, .other 3, .formula (.not (.input 1)), rfl⟩,
    ⟨.site .middle .middle .middle, .power, .formula (.gate .and [.input 0, .input 2]), rfl⟩]
  inputs_nodup := firstRepeat?_eq_none_iff.1 rfl
  outputs_nodup := firstRepeat?_eq_none_iff.1 rfl

/-- The three cases of the round trip for one circuit: a table without rows, a table with sentinel
bits that was not compiled, and the table of the circuit. -/
theorem roundTrip_rotated :
    Record.ofTable rotated [] = .error (.tableSize 8 0) ∧
    (∃ r d, Record.ofTable rotated [1, 15, 0, 3, 6, 14, 2, 9] = .ok r ∧ r.circuit = .ok d ∧
      d.IsSortedOf rotated ∧
      ∀ b : Assignment, b.length = d.inputs.length →
        (∀ p ∈ d.inputPositions, d.inputAt? b p = rotated.inputAt? [true, false, false] p) →
        d.outputAt? b (.site .front .down .middle) = some true) ∧
    (∃ r d, Record.ofTable rotated [4, 4, 0, 0, 6, 14, 2, 10] = .ok r ∧ r.circuit = .ok d ∧
      d.IsSortedOf rotated ∧ ∀ v p, d.valueAt? v p = rotated.valueAt? v p) := by
  refine ⟨(roundTrip_ofTable rotated []).1 _ rfl, ?_,
    (roundTrip_ofTable rotated [4, 4, 0, 0, 6, 14, 2, 10]).2.2 (by decide)⟩
  obtain ⟨r, d, hr, hd, hsorted, hvalue⟩ :=
    (roundTrip_ofTable rotated [1, 15, 0, 3, 6, 14, 2, 9]).2.1 _ rfl
  refine ⟨r, d, hr, hd, hsorted, fun b hb hab => ?_⟩
  obtain ⟨row, hrow, hout⟩ := hvalue [true, false, false] b rfl hb hab 1 _ rfl
  obtain rfl : (6 : PackedRow) = row := Option.some.inj hrow
  rw [hout]
  rfl

end VoxelLogic
