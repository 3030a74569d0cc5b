import VoxelLogic.Proofs.Assignment
import VoxelLogic.Record.Compiled
import Mathlib.Data.List.Perm.Subperm

/-!
# Positions in the order of the catalog

A record lists the pins of a circuit in the order of the catalog, whatever order the circuit has.

* `Position.sorted`: distinct positions in that order (`sorted_perm`, `pairwise_sorted`,
  `sorted_eq_self`).  It depends on the set of the positions only (`sorted_congr`).
* `catalogOrder_eq_map`: the order in which a record takes pins lists the places of the sorted
  positions.
-/

namespace VoxelLogic

namespace Position

/-- The positions of a list in the order of the catalog. -/
def sorted (ps : List Position) : List Position := all.filter (· ∈ ps)

@[simp] theorem mem_sorted {ps : List Position} {p : Position} : p ∈ sorted ps ↔ p ∈ ps := by
  simp [sorted, mem_all]

theorem nodup_sorted (ps : List Position) : (sorted ps).Nodup :=
  List.filter_sublist.nodup nodup_all

/-- The catalog counts its positions. -/
theorem pairwise_all : all.Pairwise fun p q => p.index < q.index := by decide

theorem pairwise_sorted (ps : List Position) :
    (sorted ps).Pairwise fun p q => p.index < q.index :=
  pairwise_all.filter _

/-- Sorting rearranges distinct positions. -/
theorem sorted_perm {ps : List Position} (h : ps.Nodup) : (sorted ps).Perm ps :=
  (List.perm_ext_iff_of_nodup (nodup_sorted ps) h).2 fun _ => mem_sorted

@[simp] theorem length_sorted {ps : List Position} (h : ps.Nodup) :
    (sorted ps).length = ps.length :=
  (sorted_perm h).length_eq

/-- Positions in the order of the catalog are sorted. -/
theorem sorted_eq_self {ps : List Position} (h : ps.Pairwise fun p q => p.index < q.index) :
    sorted ps = ps := by
  have hnodup : ps.Nodup := h.imp fun hlt heq => Nat.ne_of_lt hlt (congrArg index heq)
  exact (sorted_perm hnodup).eq_of_pairwise
    (fun _ _ _ _ hpq hqp => absurd hqp (Nat.lt_asymm hpq)) (pairwise_sorted ps) h

/-- Sorting depends on the set of the positions only. -/
theorem sorted_congr {ps qs : List Position} (h : ∀ p, p ∈ ps ↔ p ∈ qs) : sorted ps = sorted qs :=
  List.filter_congr fun p _ => by simp only [h p]

/-- The state slots come after the sites. -/
theorem isState_iff_siteCount_le {p : Position} : p.isState = true ↔ siteCount ≤ p.index := by
  have hlt : p.index < count := index_lt_count p
  rw [← isStateIndex_index, isStateIndex, Bool.and_eq_true, decide_eq_true_eq, decide_eq_true_eq]
  exact and_iff_left hlt

/-- There are no more distinct positions than the catalog has. -/
theorem length_le_count {ps : List Position} (h : ps.Nodup) : ps.length ≤ count := by
  rw [← length_all]
  exact (h.subperm fun p _ => mem_all p).length_le

end Position

open Position

/-- A position of a list is found at its place. -/
theorem idxOf?_eq_some_of_mem {ps : List Position} {p : Position} (h : p ∈ ps) :
    ps.idxOf? p = some (ps.idxOf p) := by
  cases hi : ps.idxOf? p with
  | none => exact absurd h (List.idxOf?_eq_none_iff.1 hi)
  | some i => rw [List.idxOf_eq_getD_idxOf?, hi, Option.getD_some]

/-- A position of a list stands at its place. -/
theorem getElem?_idxOf {ps : List Position} {p : Position} (h : p ∈ ps) :
    ps[ps.idxOf p]? = some p := by
  rw [List.getElem?_eq_getElem (List.idxOf_lt_length_of_mem h), List.getElem_idxOf]

/-- The order in which a record takes pins lists the places of the sorted positions. -/
theorem catalogOrder_eq_map (ps : List Position) :
    catalogOrder ps = (sorted ps).map ps.idxOf := by
  unfold catalogOrder sorted
  induction all with
  | nil => rfl
  | cons p rest ih =>
    by_cases hp : p ∈ ps
    · rw [List.filter_cons_of_pos (by simpa), List.map_cons, ← ih]
      exact List.filterMap_cons_some (f := ps.idxOf?) (idxOf?_eq_some_of_mem hp)
    · rw [List.filter_cons_of_neg (by simpa), ← ih]
      exact List.filterMap_cons_none (f := ps.idxOf?) (List.idxOf?_eq_none_iff.2 hp)

theorem length_catalogOrder {ps : List Position} (h : ps.Nodup) :
    (catalogOrder ps).length = ps.length := by
  rw [catalogOrder_eq_map, List.length_map, length_sorted h]

end VoxelLogic
