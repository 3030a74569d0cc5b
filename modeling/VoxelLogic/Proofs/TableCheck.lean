import VoxelLogic.Proofs.Assignment
import VoxelLogic.Proofs.PackedRow
import VoxelLogic.Proofs.Success
import VoxelLogic.TruthTable.Decode
import Mathlib.Order.Bounds.Defs

/-!
# Which tables are accepted

A packed table is accepted for a number of inputs and outputs if it has a row for each assignment
and every row fits the outputs (`checkTable_eq_ok_iff`).  Of several rows that do not fit, the one
at the least place is reported (`firstTooWide?_eq_some_iff`, `checkTable_eq_error_iff`).  Decoding
accepts the same tables and refuses the others for the same reasons (`decodeEntries_eq_error_iff`).

The search for the first row is an instance of `find?_eq_some_iff_isLeast`, which holds of any items
with increasing keys.
-/

namespace VoxelLogic

/-! ## The first item that passes a test -/

section Find

variable {α : Type} {key : α → Nat} {test : α → Bool} {xs : List α} {S : Set Nat}

/-- Of items with increasing keys, the first that passes a test is the one with the least key. -/
theorem find?_eq_some_iff_isLeast (h : xs.Pairwise fun x y => key x < key y)
    (hS : ∀ i, i ∈ S ↔ ∃ x ∈ xs, test x = true ∧ key x = i) {x : α} :
    xs.find? test = some x ↔ x ∈ xs ∧ IsLeast S (key x) := by
  constructor
  · intro hfind
    obtain ⟨hx, before, after, rfl, hbefore⟩ := List.find?_eq_some_iff_append.1 hfind
    have hmem : x ∈ before ++ x :: after := List.mem_append_right before List.mem_cons_self
    refine ⟨hmem, (hS _).2 ⟨x, hmem, hx, rfl⟩, fun i hi => ?_⟩
    obtain ⟨y, hy, htest, rfl⟩ := (hS i).1 hi
    obtain ⟨-, hafter, -⟩ := List.pairwise_append.1 h
    rcases List.mem_append.1 hy with hy | hy
    · exact absurd htest (by simpa using hbefore y hy)
    · rcases List.mem_cons.1 hy with rfl | hy
      · exact Nat.le_refl _
      · exact Nat.le_of_lt ((List.pairwise_cons.1 hafter).1 y hy)
  · rintro ⟨hmem, hleast, hlower⟩
    obtain ⟨before, after, rfl⟩ := List.append_of_mem hmem
    obtain ⟨-, hafter, hacross⟩ := List.pairwise_append.1 h
    have hbefore : ∀ y ∈ before, key y < key x := fun y hy => hacross y hy x List.mem_cons_self
    refine List.find?_eq_some_iff_append.2 ⟨?_, before, after, rfl, fun y hy => ?_⟩
    · obtain ⟨y, hy, htest, hkey⟩ := (hS _).1 hleast
      rcases List.mem_append.1 hy with hy | hy
      · exact absurd (hbefore y hy) (hkey ▸ Nat.lt_irrefl _)
      · rcases List.mem_cons.1 hy with rfl | hy
        · exact htest
        · exact absurd ((List.pairwise_cons.1 hafter).1 y hy) (hkey ▸ Nat.lt_irrefl _)
    · rw [Bool.not_eq_eq_eq_not, Bool.not_true, Bool.eq_false_iff]
      intro htest
      have hle := hlower ((hS _).2 ⟨y, List.mem_append_left _ hy, htest, rfl⟩)
      exact absurd (hbefore y hy) (Nat.not_lt.2 hle)

/-- No item passes a test if no key belongs to one that does. -/
theorem find?_eq_none_iff_forall_notMem
    (hS : ∀ i, i ∈ S ↔ ∃ x ∈ xs, test x = true ∧ key x = i) :
    xs.find? test = none ↔ ∀ i, i ∉ S := by
  rw [List.find?_eq_none]
  constructor
  · intro hnone i hi
    obtain ⟨x, hx, htest, -⟩ := (hS i).1 hi
    exact hnone x hx htest
  · intro hempty x hx htest
    exact hempty (key x) ((hS _).2 ⟨x, hx, htest, rfl⟩)

end Find

/-! ## Rows that do not fit -/

/-- The places of the rows of a table that have a bit above a number of outputs. -/
def tooWide (outputs : Nat) (table : PackedTable) : Set Nat :=
  {i | ∃ row, table[i]? = some row ∧ 2 ^ (outputs + 1) ≤ row.toNat}

section TooWide

variable {inputs outputs : Nat} {table : PackedTable}

theorem mem_tooWide_iff {i : Nat} :
    i ∈ tooWide outputs table ↔
      ∃ found ∈ table.zipIdx, (!found.1.fits outputs) = true ∧ found.2 = i := by
  have hfits (row : PackedRow) :
      (!row.fits outputs) = true ↔ 2 ^ (outputs + 1) ≤ row.toNat := by
    rw [Bool.not_eq_true', ← Bool.not_eq_true, PackedRow.fits_iff_toNat_lt, Nat.not_lt]
  constructor
  · rintro ⟨row, hrow, hwide⟩
    exact ⟨(row, i), List.mem_zipIdx_iff_getElem?.2 hrow, (hfits row).2 hwide, rfl⟩
  · rintro ⟨⟨row, i⟩, hrow, hwide, rfl⟩
    exact ⟨row, List.mem_zipIdx_iff_getElem?.1 hrow, (hfits row).1 hwide⟩

/-- The places of a table increase. -/
theorem pairwise_zipIdx (table : PackedTable) :
    table.zipIdx.Pairwise fun found other => found.2 < other.2 := by
  rw [← List.pairwise_map, List.zipIdx_map_snd]
  exact List.pairwise_lt_range'

/-- The row that is reported stands at the least place of a row that does not fit. -/
theorem firstTooWide?_eq_some_iff {found : PackedRow × Nat} :
    firstTooWide? outputs table = some found ↔
      table[found.2]? = some found.1 ∧ IsLeast (tooWide outputs table) found.2 := by
  rw [← List.mem_zipIdx_iff_getElem?]
  exact find?_eq_some_iff_isLeast (pairwise_zipIdx table) fun _ => mem_tooWide_iff

end TooWide

/-! ## The check -/

theorem firstTooWide?_eq_none_iff {outputs : Nat} {table : PackedTable} :
    firstTooWide? outputs table = none ↔ ∀ row ∈ table, row.fits outputs = true := by
  rw [firstTooWide?, List.find?_eq_none]
  constructor
  · intro h row hrow
    obtain ⟨i, hi, rfl⟩ := List.getElem_of_mem hrow
    have hmem : (table[i], i) ∈ table.zipIdx := by
      rw [List.mem_zipIdx_iff_getElem?]
      exact List.getElem?_eq_getElem hi
    simpa using h _ hmem
  · rintro h ⟨row, i⟩ hmem
    rw [List.mem_zipIdx_iff_getElem?] at hmem
    simpa using h row (List.mem_of_getElem? hmem)

/-- A table is accepted if it has a row for each assignment and every row fits. -/
theorem checkTable_eq_ok_iff {inputs outputs : Nat} {table : PackedTable} :
    checkTable inputs outputs table = .ok () ↔
      table.length = Assignment.count inputs ∧ ∀ row ∈ table, row.fits outputs = true := by
  rw [← firstTooWide?_eq_none_iff, checkTable]
  split
  · next hlen =>
    cases firstTooWide? outputs table with
    | none => simp [hlen]
    | some found => simp
  · next hlen => simp [hlen]

/-- A table with a row for each assignment is refused with the first row that does not fit. -/
theorem checkTable_eq_error_iff {inputs outputs : Nat} {table : PackedTable} {e : Error}
    (h : table.length = Assignment.count inputs) :
    checkTable inputs outputs table = .error e ↔
      ∃ found, firstTooWide? outputs table = some found ∧
        e = .rowWidth found.2 found.1 (PackedRow.width outputs) := by
  rw [checkTable, if_pos h]
  cases firstTooWide? outputs table with
  | none => simp
  | some found => simp [eq_comm]

/-- Decoding accepts the tables that are accepted. -/
theorem checkTable_of_decodeEntries {inputs outputs : Nat} {table : PackedTable}
    {entries : List Entry} (h : decodeEntries inputs outputs table = .ok entries) :
    checkTable inputs outputs table = .ok () := by
  obtain ⟨⟨⟩, hcheck, -⟩ := map_eq_ok_iff.1 h
  exact hcheck

/-- Decoding refuses a table for the reason for which it is refused. -/
theorem decodeEntries_eq_error_iff {inputs outputs : Nat} {table : PackedTable} {e : Error} :
    decodeEntries inputs outputs table = .error e ↔ checkTable inputs outputs table = .error e :=
  map_eq_error_iff

end VoxelLogic
