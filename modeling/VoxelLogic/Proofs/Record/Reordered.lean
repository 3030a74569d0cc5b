import VoxelLogic.Proofs.Assignment.Order
import VoxelLogic.Proofs.Catalog
import VoxelLogic.Proofs.PackedRow

/-!
# Rows and bits in another order

A record takes its rows, and the bits of a row, from a table whose pins are listed in another order.
For any such order this loses nothing: rows are moved by a bijection that gives every input its
value, and every output keeps its bit.  As words, both are made by moving single bits and joining
them, and no two of them are moved to one place.

* `moveBits`: a number whose bits are taken from those of another.
* `Assignment.getElem?_scatter`, `Assignment.bijOn_scatter`: assignments in another order.
* `bijOn_sourceRow`, `getElem?_ofIndex_sourceRow`, `sourceRow_eq_moveBits`: rows in another order.
* `output_gatherOutputs_eq`, `toNat_gatherOutputs`: the bits of a row in another order.
* `catalogOrder_perm`, `pairwise_catalogOrder`: the order in which a record takes pins.
* `scatter_catalogOrder`: moving the values of the sorted positions to their places in the circuit
  leaves every position its value.
* `rows_reordered`: the above together.
-/

namespace VoxelLogic

/-! ## Moving bits -/

/-- Takes bits of a number and joins them in a number: for each pair, the bit at the first place is
moved to the second. -/
def moveBits (moves : List (Nat × Nat)) (w : Nat) : Nat :=
  moves.foldl (fun moved (source, place) => moved ||| ((w >>> source) &&& 1) <<< place) 0

theorem testBit_moved (w source place b : Nat) :
    (((w >>> source) &&& 1) <<< place).testBit b = (place == b && w.testBit source) := by
  have hbit : (w >>> source) &&& 1 = (w.testBit source).toNat := by
    rw [Nat.toNat_testBit, Nat.and_one_is_mod, Nat.shiftRight_eq_div_pow]
  rw [hbit]
  cases w.testBit source with
  | false => simp
  | true =>
    rw [Bool.toNat_true, Nat.one_shiftLeft, Nat.testBit_two_pow, Bool.and_true]
    rfl

/-- A bit is set if a set bit is moved to its place. -/
theorem testBit_moveBits (moves : List (Nat × Nat)) (w b : Nat) :
    (moveBits moves w).testBit b = moves.any fun move => move.2 == b && w.testBit move.1 := by
  have hfold (moved : Nat) :
      (moves.foldl (fun moved move => moved ||| ((w >>> move.1) &&& 1) <<< move.2) moved).testBit
          b =
        (moved.testBit b || moves.any fun move => move.2 == b && w.testBit move.1) := by
    induction moves generalizing moved with
    | nil => simp
    | cons move moves ih =>
      rw [List.foldl_cons, ih, List.any_cons, Nat.testBit_or, testBit_moved, Bool.or_assoc]
  have hzero := hfold 0
  rwa [Nat.zero_testBit, Bool.false_or] at hzero

/-- A number is made by moves if each move carries its bit, and no other bit is set.  There is such
a number only if no two moves disagree about a place. -/
theorem eq_moveBits {moves : List (Nat × Nat)} {w x : Nat}
    (hset : ∀ source place, (source, place) ∈ moves → x.testBit place = w.testBit source)
    (hclear : ∀ b, (∀ source, (source, b) ∉ moves) → x.testBit b = false) :
    x = moveBits moves w := by
  apply Nat.eq_of_testBit_eq
  intro b
  rw [testBit_moveBits, Bool.eq_iff_iff, List.any_eq_true]
  constructor
  · intro hb
    by_cases hmoved : ∃ source, (source, b) ∈ moves
    · obtain ⟨source, hmem⟩ := hmoved
      refine ⟨(source, b), hmem, ?_⟩
      rw [← hset source b hmem, hb, beq_self_eq_true, Bool.and_true]
    · rw [hclear b (not_exists.1 hmoved)] at hb
      cases hb
  · rintro ⟨⟨source, place⟩, hmem, hmove⟩
    rw [Bool.and_eq_true, beq_iff_eq] at hmove
    obtain ⟨rfl, hbit⟩ := hmove
    rw [hset source place hmem, hbit]

/-! ## Assignments in another order -/

section Order

variable {n : Nat} {order : List Nat}

theorem lt_of_mem_order (h : order.Perm (List.range n)) {k : Nat} (hk : k ∈ order) : k < n :=
  List.mem_range.1 (h.mem_iff.1 hk)

theorem nodup_order (h : order.Perm (List.range n)) : order.Nodup :=
  h.nodup_iff.2 List.nodup_range

theorem length_order (h : order.Perm (List.range n)) : order.length = n := by
  rw [h.length_eq, List.length_range]

namespace Assignment

variable {a b : Assignment}

@[simp] theorem length_scatter (order : List Nat) (a : Assignment) :
    (scatter order a).length = order.length := by
  simp [scatter]

/-- Input `order[s]` has the value that input `s` had. -/
theorem getElem?_scatter (h : order.Perm (List.range n)) (ha : a.length = n) {s : Nat}
    (hs : s < order.length) : (scatter order a)[order[s]]? = a[s]? := by
  have hlt : order[s] < order.length := by
    rw [length_order h]
    exact lt_of_mem_order h (List.getElem_mem hs)
  have hs' : s < a.length := by
    rw [ha, ← length_order h]
    exact hs
  rw [scatter, List.getElem?_map, List.getElem?_range hlt, Option.map_some,
    (nodup_order h).idxOf_getElem s hs, List.getElem?_eq_getElem hs', Option.getD_some]

/-- Moving the values of inputs is a bijection. -/
theorem bijOn_scatter (h : order.Perm (List.range n)) :
    Set.BijOn (scatter order) {a | a.length = n} {a | a.length = n} := by
  have hlength := length_order h
  have hmaps (a : Assignment) : (scatter order a).length = n := by
    rw [length_scatter, hlength]
  refine ⟨fun a _ => hmaps a, fun a ha b hb heq => ?_, fun t ht => ?_⟩
  · -- input `s` can be read back at `order[s]`
    ext1 s
    by_cases hs : s < order.length
    · rw [← getElem?_scatter h ha hs, ← getElem?_scatter h hb hs, heq]
    · have hlea : a.length ≤ s := by
        rw [ha]
        omega
      have hleb : b.length ≤ s := by
        rw [hb]
        omega
      rw [List.getElem?_eq_none hlea, List.getElem?_eq_none hleb]
  · -- give input `s` the value that is wanted at `order[s]`
    have hsource : (order.map fun k => t[k]?.getD false).length = n := by
      rw [List.length_map, hlength]
    refine ⟨order.map fun k => t[k]?.getD false, hsource, ?_⟩
    apply List.ext_getElem
    · rw [hmaps, ht]
    · intro k h₁ h₂
      have hk : k ∈ order := by
        rw [h.mem_iff, List.mem_range, ← ht]
        exact h₂
      obtain ⟨s, hs, rfl⟩ := List.getElem_of_mem hk
      have hget := getElem?_scatter h hsource hs
      rw [List.getElem?_eq_getElem h₁, List.getElem?_map, List.getElem?_eq_getElem hs,
        Option.map_some, List.getElem?_eq_getElem h₂] at hget
      exact Option.some.inj hget

end Assignment

open Assignment

/-! ## Rows in another order -/

/-- The moves that make the source of a row: the bit of input `s` goes to the place of input
`order[s]`. -/
def inputMoves (order : List Nat) : List (Nat × Nat) :=
  order.zipIdx.map fun (k, s) => (order.length - 1 - s, order.length - 1 - k)

theorem ofIndex_sourceRow (h : order.Perm (List.range n)) (row : Nat) :
    ofIndex n (sourceRow order row) = scatter order (ofIndex n row) := by
  rw [sourceRow, length_order h]
  exact ofIndex_index_of_length ((length_scatter _ _).trans (length_order h))

/-- Rows are moved by a bijection. -/
theorem bijOn_sourceRow (h : order.Perm (List.range n)) :
    Set.BijOn (sourceRow order) (Set.Iio (2 ^ n)) (Set.Iio (2 ^ n)) := by
  have hcomp := (bijOn_index n).comp ((bijOn_scatter h).comp (bijOn_ofIndex n))
  refine hcomp.congr fun row _ => ?_
  rw [sourceRow, length_order h]
  rfl

/-- Input `order[s]` has in the source of a row the value that input `s` has in the row. -/
theorem getElem?_ofIndex_sourceRow (h : order.Perm (List.range n)) (row : Nat) {s : Nat}
    (hs : s < order.length) :
    (ofIndex n (sourceRow order row))[order[s]]? = (ofIndex n row)[s]? := by
  rw [ofIndex_sourceRow h, getElem?_scatter h (length_ofIndex n row) hs]

theorem testBit_sourceRow (h : order.Perm (List.range n)) (row : Nat) {s : Nat}
    (hs : s < order.length) :
    (sourceRow order row).testBit (n - 1 - order[s]) = row.testBit (n - 1 - s) := by
  have hget (i : Nat) {j : Nat} (hj : j < n) :
      (ofIndex n i)[j]? = some (i.testBit (n - 1 - j)) := by
    simp [ofIndex, hj]
  have hk : order[s] < n := lt_of_mem_order h (List.getElem_mem hs)
  have hs' : s < n := length_order h ▸ hs
  have hvalue := getElem?_ofIndex_sourceRow h row hs
  rw [hget _ hk, hget _ hs'] at hvalue
  exact Option.some.inj hvalue

/-- The source of a row is made by moving its bits. -/
theorem sourceRow_eq_moveBits (h : order.Perm (List.range n)) (row : Nat) :
    sourceRow order row = moveBits (inputMoves order) row := by
  have hlength := length_order h
  apply eq_moveBits
  · intro source place hmem
    obtain ⟨⟨k, s⟩, hplace, heq⟩ := List.mem_map.1 hmem
    obtain ⟨hs, hk⟩ := List.getElem?_eq_some_iff.1 (List.mem_zipIdx_iff_getElem?.1 hplace)
    obtain ⟨rfl, rfl⟩ := Prod.mk.inj heq
    have hbit := testBit_sourceRow h row hs
    rw [hk] at hbit
    rw [hlength]
    exact hbit
  · intro b hb
    by_cases hlt : b < n
    · -- some input of the source has its bit at `b`
      have hk : n - 1 - b ∈ order := by
        rw [h.mem_iff, List.mem_range]
        omega
      obtain ⟨s, hs, hget⟩ := List.getElem_of_mem hk
      refine absurd (List.mem_map.2 ⟨(n - 1 - b, s), ?_, ?_⟩) (hb (order.length - 1 - s))
      · rw [List.mem_zipIdx_iff_getElem?, List.getElem?_eq_getElem hs, hget]
      · show (order.length - 1 - s, order.length - 1 - (n - 1 - b)) = (order.length - 1 - s, b)
        rw [show order.length - 1 - (n - 1 - b) = b by omega]
    · have hrow : sourceRow order row < 2 ^ n :=
        index_lt_of_length ((length_scatter _ _).trans hlength)
      exact Nat.testBit_lt_two_pow
        (Nat.lt_of_lt_of_le hrow (Nat.pow_le_pow_right Nat.two_pos (Nat.le_of_not_lt hlt)))

/-- A record takes each of its rows from the source of the row. -/
theorem Record.getElem?_rowsOf_of_lt {table : PackedTable} (outputOrder : List Nat) {j : Nat}
    (hj : j < table.length) (hsource : sourceRow order j < table.length) :
    (Record.rowsOf order outputOrder table)[j]? =
      some (gatherOutputs outputOrder table[sourceRow order j]) := by
  simp only [rowsOf, List.getElem?_map, List.getElem?_range hj, Option.map_some,
    List.getElem?_toArray, List.getElem?_eq_getElem hsource, Option.getD_some]

/-! ## The bits of a row in another order -/

/-- The moves that make a row of a record: the bit of output `order[t]` goes to the place of output
`t`, above the sentinel. -/
def outputMoves (order : List Nat) : List (Nat × Nat) :=
  order.zipIdx.map fun (k, t) => (k + 1, t + 1)

/-- The bits of a gathered row. -/
theorem output_gatherOutputs_eq (hlength : order.length ≤ 63) (row : PackedRow) (t : Nat) :
    (gatherOutputs order row).output t = (order[t]?.map row.output).getD false := by
  have hroom : (order.map row.output).length < 64 := by
    rw [List.length_map]
    omega
  rw [gatherOutputs, PackedRow.output_pack hroom, List.getElem?_map]

/-- A gathered row is made by moving the bits of the row. -/
theorem toNat_gatherOutputs (hlength : order.length ≤ 63) (row : PackedRow) :
    (gatherOutputs order row).toNat = moveBits (outputMoves order) row.toNat := by
  apply eq_moveBits
  · intro source place hmem
    obtain ⟨⟨k, t⟩, hplace, heq⟩ := List.mem_map.1 hmem
    obtain ⟨rfl, rfl⟩ := Prod.mk.inj heq
    have hbit := output_gatherOutputs_eq hlength row t
    rw [List.mem_zipIdx_iff_getElem?.1 hplace] at hbit
    rw [BitVec.testBit_toNat, BitVec.testBit_toNat]
    exact hbit
  · intro b hb
    rw [BitVec.testBit_toNat]
    cases b with
    | zero => exact PackedRow.sentinel_pack _
    | succ t =>
      have hnone : order[t]? = none := by
        rw [Option.eq_none_iff_forall_ne_some]
        intro k hk
        exact hb (k + 1) (List.mem_map.2 ⟨(k, t), List.mem_zipIdx_iff_getElem?.2 hk, rfl⟩)
      have hbit := output_gatherOutputs_eq hlength row t
      rw [hnone] at hbit
      exact hbit

end Order

/-! ## The order of the catalog -/

section Catalog

variable {ps : List Position}

open Position

/-- The places of distinct positions are counted up. -/
theorem map_idxOf_self (h : ps.Nodup) : ps.map ps.idxOf = List.range ps.length := by
  apply List.ext_getElem
  · rw [List.length_map, List.length_range]
  · intro k h₁ h₂
    rw [List.getElem_map, List.getElem_range]
    exact h.idxOf_getElem k (by simpa using h₁)

/-- A record takes every pin once. -/
theorem catalogOrder_perm (h : ps.Nodup) : (catalogOrder ps).Perm (List.range ps.length) := by
  rw [catalogOrder_eq_map, ← map_idxOf_self h]
  exact (sorted_perm h).map _

/-- A record takes pins in the order of the catalog. -/
theorem pairwise_catalogOrder (ps : List Position) :
    (catalogOrder ps).Pairwise fun k l =>
      ∃ p q, ps[k]? = some p ∧ ps[l]? = some q ∧ p.index < q.index := by
  rw [catalogOrder_eq_map, List.pairwise_map]
  refine (pairwise_sorted ps).imp_of_mem fun {p q} hp hq hlt => ⟨p, q, ?_, ?_, hlt⟩
  · exact getElem?_idxOf (mem_sorted.1 hp)
  · exact getElem?_idxOf (mem_sorted.1 hq)

/-- Moving the values of the sorted positions to their places in a circuit leaves every position
its value. -/
theorem scatter_catalogOrder (h : ps.Nodup) (v : Position → Bool) :
    Assignment.scatter (catalogOrder ps) ((sorted ps).map v) = ps.map v := by
  have hperm := catalogOrder_perm h
  have hlength : ((sorted ps).map v).length = ps.length := by
    rw [List.length_map, length_sorted h]
  apply List.ext_getElem?
  intro k
  by_cases hk : k < ps.length
  · -- place `k` is that of some sorted position
    have hmem : k ∈ catalogOrder ps := hperm.mem_iff.2 (List.mem_range.2 hk)
    obtain ⟨s, hs, rfl⟩ := List.getElem_of_mem hmem
    have hs' : s < (sorted ps).length := by
      rwa [catalogOrder_eq_map, List.length_map] at hs
    have hplace : (catalogOrder ps)[s] = ps.idxOf (sorted ps)[s] := by
      simp only [catalogOrder_eq_map, List.getElem_map]
    have hp : (sorted ps)[s] ∈ ps := mem_sorted.1 (List.getElem_mem hs')
    rw [Assignment.getElem?_scatter hperm hlength hs, hplace, List.getElem?_map, List.getElem?_map,
      getElem?_idxOf hp, List.getElem?_eq_getElem hs']
  · have hle : ps.length ≤ k := Nat.le_of_not_lt hk
    rw [List.getElem?_eq_none, List.getElem?_eq_none]
    · rwa [List.length_map]
    · rwa [Assignment.length_scatter, length_order hperm]

end Catalog

/-! ## Rows and bits -/

open Assignment

/-- **Rows in another order.**  Let a record list `n` inputs and up to 63 outputs in any order of
their places.  Its row `j` comes from a row of the table that is made by moving the bits of `j` and
gives input `order[s]` the value that `j` gives to input `s`, and this is a bijection of the rows.
The bits of a row are moved to a row with a clear sentinel and no bit above the outputs, and output
`t` of that row is output `order[t]` of the source.  The places of distinct positions are such an
order, and in it the positions follow the catalog. -/
theorem rows_reordered :
    (∀ (n : Nat) (order : List Nat), order.Perm (List.range n) →
      Set.BijOn (sourceRow order) (Set.Iio (2 ^ n)) (Set.Iio (2 ^ n)) ∧
      ∀ j < 2 ^ n, sourceRow order j = moveBits (inputMoves order) j ∧ sourceRow order j < 2 ^ n ∧
        (∀ (s : Nat) (hs : s < order.length),
          (ofIndex n (sourceRow order j))[order[s]]? = (ofIndex n j)[s]?) ∧
        ∀ (outputOrder : List Nat) (table : PackedTable), table.length = 2 ^ n →
          ∃ row, table[sourceRow order j]? = some row ∧
            (Record.rowsOf order outputOrder table)[j]? = some (gatherOutputs outputOrder row)) ∧
    (∀ (m : Nat) (order : List Nat), m ≤ 63 → order.Perm (List.range m) → ∀ row : PackedRow,
      (gatherOutputs order row).toNat = moveBits (outputMoves order) row.toNat ∧
      (gatherOutputs order row).getLsbD 0 = false ∧
      (∀ b, m < b → (gatherOutputs order row).getLsbD b = false) ∧
      ∀ (t : Nat) (ht : t < order.length),
        (gatherOutputs order row).getLsbD (t + 1) = row.getLsbD (order[t] + 1)) ∧
    ∀ ps : List Position, ps.Nodup → (catalogOrder ps).Perm (List.range ps.length) ∧
      (catalogOrder ps).Pairwise fun k l =>
        ∃ p q, ps[k]? = some p ∧ ps[l]? = some q ∧ p.index < q.index := by
  refine ⟨?_, ?_, fun ps h => ⟨catalogOrder_perm h, pairwise_catalogOrder ps⟩⟩
  · intro n order h
    refine ⟨bijOn_sourceRow h, fun j hj => ?_⟩
    have hsource : sourceRow order j < 2 ^ n := (bijOn_sourceRow h).mapsTo hj
    refine ⟨sourceRow_eq_moveBits h j, hsource, fun s hs => getElem?_ofIndex_sourceRow h j hs, ?_⟩
    intro outputOrder table htable
    rw [← htable] at hj hsource
    exact ⟨_, List.getElem?_eq_getElem hsource, Record.getElem?_rowsOf_of_lt outputOrder hj hsource⟩
  · intro m order hm h row
    have hlength := length_order h
    have hroom : order.length ≤ 63 := hlength ▸ hm
    have hmoves := toNat_gatherOutputs hroom row
    refine ⟨hmoves, PackedRow.sentinel_pack _, fun b hb => ?_, fun t ht => ?_⟩
    · obtain ⟨t, rfl⟩ := Nat.exists_eq_succ_of_ne_zero (Nat.ne_zero_of_lt hb)
      have hnone : order[t]? = none := List.getElem?_eq_none (by omega)
      have hbit := output_gatherOutputs_eq hroom row t
      rw [hnone] at hbit
      exact hbit
    · have hbit := output_gatherOutputs_eq hroom row t
      rw [List.getElem?_eq_getElem ht] at hbit
      exact hbit

/-- Three inputs that are turned round, 63 outputs that are reversed, so that the last bit of a
word becomes the first above the sentinel, and a slot and two sites in the order of the catalog. -/
theorem rows_reordered_turned :
    [2, 0, 1].Perm (List.range 3) ∧ sourceRow [2, 0, 1] 4 = 1 ∧
      (ofIndex 3 (sourceRow [2, 0, 1] 4))[2]? = some true ∧
      Set.BijOn (sourceRow [2, 0, 1]) (Set.Iio (2 ^ 3)) (Set.Iio (2 ^ 3)) ∧
      (gatherOutputs (List.range 63).reverse 9223372036854775808).getLsbD 1 = true ∧
      (catalogOrder [.slot 0, .site .back .top .left, .site .front .down .left]).Perm
        (List.range 3) := by
  obtain ⟨hinputs, houtputs, hcatalog⟩ := rows_reordered
  have horder : [2, 0, 1].Perm (List.range 3) := by decide
  obtain ⟨hbij, hrow⟩ := hinputs 3 [2, 0, 1] horder
  obtain ⟨hmoves, -, hvalue, -⟩ := hrow 4 (by decide)
  have hreversed : (List.range 63).reverse.Perm (List.range 63) := List.reverse_perm _
  obtain ⟨-, -, -, hbit⟩ := houtputs 63 _ (Nat.le_refl 63) hreversed 9223372036854775808
  have hpositions : [Position.slot 0, .site .back .top .left, .site .front .down .left].Nodup := by
    decide
  refine ⟨horder, ?_, ?_, hbij, ?_, (hcatalog _ hpositions).1⟩
  · rw [hmoves]
    decide
  · exact (hvalue 0 (by decide)).trans (by decide)
  · exact (hbit 0 (by decide)).trans (by decide)

end VoxelLogic
