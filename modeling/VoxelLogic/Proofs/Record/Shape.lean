import VoxelLogic.Proofs.Record.Normal

/-!
# Which records are accepted

A record has a circuit exactly if it is well shaped.  Loading a record checks eight conditions, one
after the other, and the first that is not met is reported with the first entry that breaks it.

* `Record.IsWellShaped`: the shape of the records that have a circuit.
* `Condition`, `Condition.all`: the conditions in the order in which they are checked.
* `FirstReport`: what is reported of some conditions.
* `Checks`: a computation that checks some conditions.  Each step of loading a record has a lemma
  that says which conditions it checks, and `Checks.bind` puts them together.
* `circuit_firstReport`: loading a record checks all of them.
-/

namespace VoxelLogic

open Position

/-! ## Conditions -/

namespace Record

/-- The remap of one side of a record. -/
def remap (r : Record) : RecordSide → List UInt32
  | .input => r.inputRemap
  | .output => r.outputRemap

/-- The type codes of one side of a record. -/
def types (r : Record) : RecordSide → List UInt8
  | .input => r.inputTypes
  | .output => r.outputTypes

/-- An index is used by one side of a record if its entry in the remap is not zero. -/
def Uses (r : Record) (side : RecordSide) (i : Nat) : Prop :=
  ∃ order, (r.remap side)[i]? = some order ∧ order ≠ 0

/-- Number of entries of a remap that are not zero. -/
def usedCount (r : Record) (side : RecordSide) : Nat := (r.remap side).countP (· != 0)

/-- A record whose remaps do not go on beyond the catalog, whose used indices have type codes, those
of state slots the code of power, and whose rows are as many and as wide as its pins call for. -/
structure IsWellShaped (r : Record) : Prop where
  length_remap_le : ∀ side, (r.remap side).length ≤ 35
  lt_length_types : ∀ side i, r.Uses side i → i < (r.types side).length
  code_eq_zero : ∀ side i, r.Uses side i → 27 ≤ i → (r.types side)[i]? = some 0
  rowCount_eq : r.groups.flatten.length = 2 ^ r.usedCount .input
  row_lt : ∀ group ∈ r.groups, ∀ row ∈ group, row.toNat < 2 ^ (r.usedCount .output + 1)

/-- The used indices without a type code. -/
def untyped (r : Record) (side : RecordSide) : Set Nat :=
  {i | r.Uses side i ∧ (r.types side).length ≤ i}

/-- The used indices of state slots without the code of power. -/
def charged (r : Record) (side : RecordSide) : Set Nat :=
  {i | r.Uses side i ∧ 27 ≤ i ∧ (r.types side)[i]? ≠ some 0}

/-- The indices of rows that are too wide, all groups taken together. -/
def wide (r : Record) : Set Nat :=
  {i | ∃ row, r.groups.flatten[i]? = some row ∧ 2 ^ (r.usedCount .output + 1) ≤ row.toNat}

variable {r : Record} {side : RecordSide} {i : Nat}

@[simp] theorem mem_untyped : i ∈ r.untyped side ↔ r.Uses side i ∧ (r.types side).length ≤ i :=
  Iff.rfl

@[simp] theorem mem_charged :
    i ∈ r.charged side ↔ r.Uses side i ∧ 27 ≤ i ∧ (r.types side)[i]? ≠ some 0 :=
  Iff.rfl

@[simp] theorem mem_wide :
    i ∈ r.wide ↔
      ∃ row, r.groups.flatten[i]? = some row ∧ 2 ^ (r.usedCount .output + 1) ≤ row.toNat :=
  Iff.rfl

end Record

/-- Something that loading a record checks. -/
inductive Condition where
  /-- A remap is not longer than the catalog. -/
  | remapLength (side : RecordSide)
  /-- Used indices have type codes. -/
  | typeCodes (side : RecordSide)
  /-- Used state slots have the code of power. -/
  | stateCodes (side : RecordSide)
  /-- There is a row for each assignment. -/
  | rowCount
  /-- No row has a bit above its outputs. -/
  | rowWidth

namespace Condition

/-- The conditions in the order in which they are checked.  The types of the outputs come last. -/
def all : List Condition :=
  [remapLength .input, typeCodes .input, stateCodes .input, remapLength .output, typeCodes .output,
    rowCount, rowWidth, stateCodes .output]

/-- Whether a record meets a condition. -/
def IsMet (r : Record) : Condition → Prop
  | remapLength side => (r.remap side).length ≤ 35
  | typeCodes side => ∀ i, i ∉ r.untyped side
  | stateCodes side => ∀ i, i ∉ r.charged side
  | rowCount => r.groups.flatten.length = 2 ^ r.usedCount .input
  | rowWidth => ∀ i, i ∉ r.wide

/-- The error that reports that a record does not meet a condition.  It names the first index that
breaks the condition. -/
def Reports (r : Record) (e : Error) : Condition → Prop
  | remapLength side => e = .recordShape (.remapTooLong side (r.remap side).length)
  | typeCodes side => ∃ i, IsLeast (r.untyped side) i ∧ e = .recordShape (.typeMissing side i)
  | stateCodes side => ∃ (p : Position) (code : UInt8), IsLeast (r.charged side) p.index ∧
      (r.types side)[p.index]? = some code ∧ e = .stateType p (.ofCode code)
  | rowCount => e = .tableSize (2 ^ r.usedCount .input) r.groups.flatten.length
  | rowWidth => ∃ i row, IsLeast r.wide i ∧ r.groups.flatten[i]? = some row ∧
      e = .rowWidth i row (r.usedCount .output + 1)

end Condition

/-- Of some conditions, the first that a record does not meet reports an error. -/
inductive FirstReport (r : Record) (e : Error) : List Condition → Prop
  | here {q : Condition} {qs : List Condition} :
    ¬ q.IsMet r → q.Reports r e → FirstReport r e (q :: qs)
  | later {q : Condition} {qs : List Condition} :
    q.IsMet r → FirstReport r e qs → FirstReport r e (q :: qs)

theorem Condition.mem_all (q : Condition) : q ∈ Condition.all := by
  rcases q with side | side | side | _ | _
  all_goals first | cases side | skip
  all_goals simp [Condition.all]

/-- A row is too wide exactly if a row of some group is. -/
theorem Record.forall_notMem_wide_iff {r : Record} :
    (∀ i, i ∉ r.wide) ↔
      ∀ group ∈ r.groups, ∀ row ∈ group, row.toNat < 2 ^ (r.usedCount .output + 1) := by
  simp only [mem_wide, not_exists, not_and, Nat.not_le]
  rw [← List.forall_mem_flatten]
  constructor
  · intro h row hrow
    obtain ⟨i, hi⟩ := List.mem_iff_getElem?.1 hrow
    exact h i row hi
  · exact fun h i row hi => h row (List.mem_of_getElem? hi)

/-- A record is well shaped if it meets all conditions. -/
theorem Record.isWellShaped_iff {r : Record} :
    r.IsWellShaped ↔ ∀ q ∈ Condition.all, q.IsMet r := by
  constructor
  · intro h q _
    cases q with
    | remapLength side => exact h.length_remap_le side
    | typeCodes side => exact fun i hi => absurd (h.lt_length_types side i hi.1) (Nat.not_lt.2 hi.2)
    | stateCodes side => exact fun i hi => hi.2.2 (h.code_eq_zero side i hi.1 hi.2.1)
    | rowCount => exact h.rowCount_eq
    | rowWidth => exact Record.forall_notMem_wide_iff.2 h.row_lt
  · intro h
    have hmet (q : Condition) : q.IsMet r := h q q.mem_all
    constructor
    case length_remap_le => exact fun side => hmet (.remapLength side)
    case lt_length_types =>
      exact fun side i hi => Nat.lt_of_not_le fun hle => hmet (.typeCodes side) i ⟨hi, hle⟩
    case code_eq_zero =>
      intro side i hi hstate
      exact by_contra fun hne => hmet (.stateCodes side) i ⟨hi, hstate, hne⟩
    case rowCount_eq => exact hmet .rowCount
    case row_lt => exact Record.forall_notMem_wide_iff.1 (hmet .rowWidth)

/-! ## Computations that check conditions -/

variable {r : Record} {e : Error} {α β : Type}

theorem firstReport_cons_iff {q : Condition} {qs : List Condition} :
    FirstReport r e (q :: qs) ↔
      (¬ q.IsMet r ∧ q.Reports r e) ∨ (q.IsMet r ∧ FirstReport r e qs) := by
  constructor
  · rintro (⟨hnot, hreports⟩ | ⟨hmet, hlater⟩)
    · exact .inl ⟨hnot, hreports⟩
    · exact .inr ⟨hmet, hlater⟩
  · rintro (⟨hnot, hreports⟩ | ⟨hmet, hlater⟩)
    · exact .here hnot hreports
    · exact .later hmet hlater

theorem firstReport_append_iff {qs ps : List Condition} :
    FirstReport r e (qs ++ ps) ↔
      FirstReport r e qs ∨ ((∀ q ∈ qs, q.IsMet r) ∧ FirstReport r e ps) := by
  induction qs with
  | nil =>
    constructor
    · exact fun h => .inr ⟨nofun, h⟩
    · rintro (h | ⟨-, h⟩)
      · cases h
      · exact h
  | cons q qs ih =>
    rw [List.cons_append, firstReport_cons_iff, firstReport_cons_iff, ih, List.forall_mem_cons,
      and_or_left, or_assoc, and_assoc]

/-- A computation that succeeds if a record meets some conditions, and otherwise ends in the report
of the first that is not met. -/
structure Checks (r : Record) (qs : List Condition) (x : Except Error α) : Prop where
  ok_iff : (∃ a, x = .ok a) ↔ ∀ q ∈ qs, q.IsMet r
  error_iff : ∀ e, x = .error e ↔ FirstReport r e qs

theorem Checks.of_eq_ok {x : Except Error α} {a : α} (h : x = .ok a) : Checks r [] x := by
  subst h
  exact ⟨⟨fun _ => nofun, fun _ => ⟨a, rfl⟩⟩, fun e => ⟨nofun, nofun⟩⟩

theorem Checks.bind {x : Except Error α} {f : α → Except Error β} {qs ps : List Condition}
    (hx : Checks r qs x) (hf : ∀ a, x = .ok a → Checks r ps (f a)) :
    Checks r (qs ++ ps) (x.bind f) := by
  cases x with
  | error e₀ =>
    have hno : ¬ ∃ a, (Except.error e₀ : Except Error α) = .ok a := nofun
    have hnot : ¬ ∀ q ∈ qs, q.IsMet r := mt hx.ok_iff.2 hno
    constructor
    · rw [List.forall_mem_append]
      exact ⟨nofun, fun h => absurd h.1 hnot⟩
    · intro e
      rw [bind_eq_error_iff, or_iff_left fun ⟨a, ha, _⟩ => hno ⟨a, ha⟩, firstReport_append_iff,
        ← hx.error_iff, or_iff_left fun h => hnot h.1]
  | ok a =>
    have hmet : ∀ q ∈ qs, q.IsMet r := hx.ok_iff.1 ⟨a, rfl⟩
    have hrest := hf a rfl
    constructor
    · rw [List.forall_mem_append]
      exact hrest.ok_iff.trans (and_iff_right hmet).symm
    · intro e
      rw [firstReport_append_iff, ← hx.error_iff, ← hrest.error_iff, and_iff_right hmet]
      exact (or_iff_right nofun).symm

/-- A condition that is met can be checked before others. -/
theorem Checks.cons_of_isMet {x : Except Error α} {q : Condition} {qs : List Condition}
    (hq : q.IsMet r) (hx : Checks r qs x) : Checks r (q :: qs) x := by
  constructor
  · rw [hx.ok_iff, List.forall_mem_cons, and_iff_right hq]
  · intro e
    rw [hx.error_iff, firstReport_cons_iff, and_iff_right hq, or_iff_right fun h => h.1 hq]

/-- A condition that is not met hides those after it. -/
theorem Checks.cons_of_not_isMet {x : Except Error α} {q : Condition} {qs : List Condition}
    (hq : ¬ q.IsMet r) (hx : ∀ e, x = .error e ↔ q.Reports r e) (hfails : ∃ e, x = .error e) :
    Checks r (q :: qs) x := by
  obtain ⟨e₀, he₀⟩ := hfails
  constructor
  · rw [he₀, List.forall_mem_cons]
    exact ⟨nofun, fun h => absurd h.1 hq⟩
  · intro e
    rw [hx, firstReport_cons_iff, and_iff_right hq, or_iff_left fun h => hq h.1]

/-- A computation that looks for the first item with a fault, where the items have increasing
indices and a condition says that no index has one. -/
theorem Checks.of_find? {x : Except Error α} {q : Condition} {key : β → Nat} {test : β → Bool}
    {xs : List β} {S : Set Nat} {report : β → Error}
    (hpairwise : xs.Pairwise fun y z => key y < key z)
    (hS : ∀ i, i ∈ S ↔ ∃ y ∈ xs, test y = true ∧ key y = i) (hmet : q.IsMet r ↔ ∀ i, i ∉ S)
    (hreports : ∀ e, q.Reports r e ↔ ∃ y ∈ xs, IsLeast S (key y) ∧ e = report y)
    (hx : ∀ e, x = .error e ↔ ∃ y, xs.find? test = some y ∧ e = report y) : Checks r [q] x := by
  have herror (e : Error) : x = .error e ↔ q.Reports r e := by
    simp only [hx, hreports, find?_eq_some_iff_isLeast hpairwise hS, and_assoc]
  by_cases hq : q.IsMet r
  · refine .cons_of_isMet hq ?_
    have hnone := (find?_eq_none_iff_forall_notMem hS).2 (hmet.1 hq)
    have hnot (e : Error) : x ≠ .error e := by
      rw [Ne, hx, hnone]
      nofun
    obtain ⟨a, ha⟩ := exists_eq_ok_iff.2 hnot
    exact .of_eq_ok ha
  · have hsome : xs.find? test ≠ none := fun hnone =>
      hq (hmet.2 ((find?_eq_none_iff_forall_notMem hS).1 hnone))
    obtain ⟨y, hy⟩ := Option.ne_none_iff_exists'.1 hsome
    exact .cons_of_not_isMet hq herror ⟨report y, (hx _).2 ⟨y, hy, rfl⟩⟩

/-! ## Types of used positions -/

namespace Record

variable {r : Record} {side : RecordSide} {p : Position} {codes : List UInt8} {ps : List Position}

/-- An index with a position is used if the remap uses the position. -/
theorem uses_index_iff : r.Uses side p.index ↔ p ∈ usedPositions (r.remap side) := by
  rw [mem_usedPositions_iff, entryAt, Uses]
  cases (r.remap side)[p.index]? <;> simp

/-- Used indices have positions if the remap is not longer than the catalog. -/
theorem Uses.exists_position (h : (r.remap side).length ≤ 35) {i : Nat} (hi : r.Uses side i) :
    ∃ p ∈ usedPositions (r.remap side), p.index = i := by
  obtain ⟨order, horder, -⟩ := id hi
  have hlt : i < all.length :=
    Nat.lt_of_lt_of_le (List.getElem?_eq_some_iff.1 horder).1 (length_all ▸ h)
  have hp : (all[i]).index = i := index_of_atIndex? (List.getElem?_eq_getElem hlt)
  exact ⟨all[i], uses_index_iff.1 (hp.symm ▸ hi), hp⟩

/-- As many positions are used as a remap has entries that are not zero. -/
theorem length_usedPositions (h : (r.remap side).length ≤ 35) :
    (usedPositions (r.remap side)).length = r.usedCount side := by
  have hsnd : (all.zip (r.remap side)).map Prod.snd = r.remap side :=
    List.map_snd_zip (length_all ▸ h)
  rw [usedPositions, List.length_map, ← List.countP_eq_length_filter, usedCount]
  conv_rhs => rw [← hsnd, List.countP_map]
  rfl

/-- Pairing positions with their codes fails at the first that has none. -/
theorem typed_eq_error_iff :
    typed side codes ps = .error e ↔
      ∃ p, ps.find? (fun p => codes.length ≤ p.index) = some p ∧
        e = .recordShape (.typeMissing side p.index) := by
  induction ps with
  | nil => simp [typed]
  | cons p ps ih =>
    rw [typed]
    split
    · next hnone =>
      rw [List.find?_cons_of_pos (by simpa using List.getElem?_eq_none_iff.1 hnone)]
      simp [eq_comm]
    · next code hcode =>
      have hlt : p.index < codes.length := (List.getElem?_eq_some_iff.1 hcode).1
      rw [List.find?_cons_of_neg (by simpa using hlt), map_eq_error_iff, ih]

/-- The used positions without a type code, by their indices. -/
theorem mem_untyped_iff (h : (r.remap side).length ≤ 35) (i : Nat) :
    i ∈ r.untyped side ↔ ∃ p ∈ usedPositions (r.remap side),
      decide ((r.types side).length ≤ p.index) = true ∧ p.index = i := by
  rw [mem_untyped]
  constructor
  · rintro ⟨huses, hle⟩
    obtain ⟨p, hp, rfl⟩ := huses.exists_position h
    exact ⟨p, hp, decide_eq_true hle, rfl⟩
  · rintro ⟨p, hp, hle, rfl⟩
    exact ⟨uses_index_iff.2 hp, of_decide_eq_true hle⟩

/-- Finding the used positions with their types checks the remap and the types. -/
theorem checks_typedPositions (r : Record) (side : RecordSide) :
    Checks r [.remapLength side, .typeCodes side]
      (typedPositions side (r.remap side) (r.types side)) := by
  rw [typedPositions]
  split
  · next hle =>
    refine .cons_of_isMet hle (.of_find? (pairwise_usedPositions _) (mem_untyped_iff hle) Iff.rfl
      (fun e => ?_) fun e => typed_eq_error_iff)
    constructor
    · rintro ⟨i, hi, rfl⟩
      obtain ⟨p, hp, rfl⟩ := hi.1.1.exists_position hle
      exact ⟨p, hp, hi, rfl⟩
    · rintro ⟨p, -, hi, rfl⟩
      exact ⟨p.index, hi, rfl⟩
  · next hlong =>
    refine .cons_of_not_isMet hlong (fun e => ?_) ⟨_, rfl⟩
    rw [Except.error.injEq]
    exact eq_comm

section Pins

variable {pairs : List (Position × PinType)}

/-- A remap whose used positions have types meets the conditions of its length and its types. -/
theorem isMet_of_typedPositions
    (h : typedPositions side (r.remap side) (r.types side) = .ok pairs) :
    (r.remap side).length ≤ 35 ∧ ∀ i, i ∉ r.untyped side := by
  have hmet := (checks_typedPositions r side).ok_iff.1 ⟨pairs, h⟩
  exact ⟨hmet (.remapLength side) (by simp), hmet (.typeCodes side) (by simp)⟩

/-- A remap whose used positions have types uses as many positions as it has entries that are not
zero. -/
theorem length_of_typedPositions
    (h : typedPositions side (r.remap side) (r.types side) = .ok pairs) :
    pairs.length = r.usedCount side := by
  rw [eq_map_of_typedPositions h, List.length_map,
    length_usedPositions (isMet_of_typedPositions h).1]

/-! ## Making pins -/

/-- Making inputs fails at the first position that does not take its type. -/
theorem makeInputs_eq_error_iff :
    makeInputs pairs = .error e ↔
      ∃ pair, pairs.find? (fun pair => !pair.1.takes pair.2) = some pair ∧
        e = .stateType pair.1 pair.2 := by
  induction pairs with
  | nil => simp [makeInputs]
  | cons pair pairs ih =>
    obtain ⟨p, type⟩ := pair
    rw [makeInputs_cons, bind_eq_error_iff, InputPin.make]
    split
    · next htakes =>
      rw [List.find?_cons_of_neg (by simp [htakes]), ← ih]
      simp [map_eq_error_iff]
    · next hnot =>
      rw [List.find?_cons_of_pos (by simpa using hnot)]
      simp [eq_comm]

/-- Making outputs fails at the first position that does not take its type. -/
theorem makeOutputs_eq_error_iff {rows : Array PackedRow} {k : Nat} :
    makeOutputs rows k pairs = .error e ↔
      ∃ pair, pairs.find? (fun pair => !pair.1.takes pair.2) = some pair ∧
        e = .stateType pair.1 pair.2 := by
  induction pairs generalizing k with
  | nil => simp [makeOutputs]
  | cons pair pairs ih =>
    obtain ⟨p, type⟩ := pair
    rw [makeOutputs_cons, bind_eq_error_iff, OutputPin.make]
    split
    · next htakes =>
      rw [List.find?_cons_of_neg (by simp [htakes]), ← ih (k := k + 1)]
      simp [map_eq_error_iff]
    · next hnot =>
      rw [List.find?_cons_of_pos (by simpa using hnot)]
      simp [eq_comm]

/-- Positions that are paired with their types have type codes. -/
theorem getElem?_types_of_typedPositions
    (h : typedPositions side (r.remap side) (r.types side) = .ok pairs)
    (hp : p ∈ usedPositions (r.remap side)) :
    (r.types side)[p.index]? = some (entryAt (r.types side) p) := by
  have hlt : p.index < (r.types side).length :=
    Nat.lt_of_not_le fun hle => (isMet_of_typedPositions h).2 _ ⟨uses_index_iff.2 hp, hle⟩
  rw [entryAt, List.getElem?_eq_getElem hlt, Option.getD_some]

/-- A used position does not take its type if it is a state slot without the code of power. -/
theorem not_takes_iff (h : typedPositions side (r.remap side) (r.types side) = .ok pairs)
    (hp : p ∈ usedPositions (r.remap side)) :
    (!p.takes (.ofCode (entryAt (r.types side) p))) = true ↔
      27 ≤ p.index ∧ (r.types side)[p.index]? ≠ some 0 := by
  have hstate : p.isState = true ↔ 27 ≤ p.index := isState_iff_siteCount_le
  rw [Bool.not_eq_true', ← Bool.not_eq_true, Position.takes_ofCode_iff, hstate,
    getElem?_types_of_typedPositions h hp]
  simp

/-- The used state slots without the code of power are the positions that do not take their
types. -/
theorem mem_charged_iff (h : typedPositions side (r.remap side) (r.types side) = .ok pairs)
    (i : Nat) :
    i ∈ r.charged side ↔
      ∃ pair ∈ pairs, (!pair.1.takes pair.2) = true ∧ pair.1.index = i := by
  have htakes {p : Position} (hp : p ∈ usedPositions (r.remap side)) := not_takes_iff h hp
  obtain ⟨hlength, -⟩ := isMet_of_typedPositions h
  obtain rfl := eq_map_of_typedPositions h
  rw [mem_charged]
  constructor
  · rintro ⟨huses, hfault⟩
    obtain ⟨p, hp, rfl⟩ := huses.exists_position hlength
    exact ⟨_, List.mem_map_of_mem hp, (htakes hp).2 hfault, rfl⟩
  · rintro ⟨pair, hpair, hfault, rfl⟩
    obtain ⟨p, hp, rfl⟩ := List.mem_map.1 hpair
    exact ⟨uses_index_iff.2 hp, (htakes hp).1 hfault⟩

/-- Making pins of the used positions checks the types of state slots. -/
theorem checks_stateCodes {α : Type} {x : Except Error α}
    (h : typedPositions side (r.remap side) (r.types side) = .ok pairs)
    (hx : ∀ e, x = .error e ↔ ∃ pair, pairs.find? (fun pair => !pair.1.takes pair.2) = some pair ∧
      e = .stateType pair.1 pair.2) : Checks r [.stateCodes side] x := by
  have hpairwise : pairs.Pairwise fun pair other => pair.1.index < other.1.index := by
    rw [eq_map_of_typedPositions h, List.pairwise_map]
    exact pairwise_usedPositions _
  refine .of_find? hpairwise (mem_charged_iff h) Iff.rfl (fun e => ?_) hx
  have hcodes := fun p hp => getElem?_types_of_typedPositions (p := p) h hp
  obtain rfl := eq_map_of_typedPositions h
  constructor
  · rintro ⟨p, code, hleast, hcode, rfl⟩
    have hp : p ∈ usedPositions (r.remap side) := uses_index_iff.1 hleast.1.1
    rw [hcodes p hp, Option.some.injEq] at hcode
    exact ⟨_, List.mem_map_of_mem hp, hleast, by rw [hcode]⟩
  · rintro ⟨pair, hpair, hleast, rfl⟩
    obtain ⟨p, hp, rfl⟩ := List.mem_map.1 hpair
    exact ⟨p, _, hleast, hcodes p hp, rfl⟩

end Pins

end Record

/-! ## The table -/

namespace Record

/-- The rows that are too wide, by their indices. -/
theorem mem_wide_iff (r : Record) (i : Nat) :
    i ∈ r.wide ↔ ∃ found ∈ r.table.zipIdx,
      (!found.1.fits (r.usedCount .output)) = true ∧ found.2 = i :=
  mem_tooWide_iff

/-- Checking the table checks the number of its rows and their width. -/
theorem checks_checkTable (r : Record) :
    Checks r [.rowCount, .rowWidth]
      (checkTable (r.usedCount .input) (r.usedCount .output) r.table) := by
  by_cases hcount : r.table.length = Assignment.count (r.usedCount .input)
  · refine .cons_of_isMet hcount (.of_find? (pairwise_zipIdx r.table) (mem_wide_iff r) Iff.rfl
      (fun e => ?_) fun e => checkTable_eq_error_iff hcount)
    constructor
    · rintro ⟨i, row, hleast, hrow, rfl⟩
      exact ⟨(row, i), List.mem_zipIdx_iff_getElem?.2 hrow, hleast, rfl⟩
    · rintro ⟨⟨row, i⟩, hrow, hleast, rfl⟩
      exact ⟨i, row, hleast, List.mem_zipIdx_iff_getElem?.1 hrow, rfl⟩
  · rw [checkTable, if_neg hcount]
    refine .cons_of_not_isMet hcount (fun e => ?_) ⟨_, rfl⟩
    rw [Except.error.injEq]
    exact eq_comm

/-! ## Loading a record -/

/-- **Loading a record checks all conditions in their order.** -/
theorem checks_circuit (r : Record) : Checks r Condition.all r.circuit := by
  have hinputs : Checks r [.remapLength .input, .typeCodes .input, .stateCodes .input] r.inputs :=
    (checks_typedPositions r .input).bind fun ins hins =>
      checks_stateCodes hins fun e => makeInputs_eq_error_iff
  refine hinputs.bind fun inputs hok => ?_
  obtain ⟨ins, hins, hinputPins⟩ := bind_eq_ok_iff.1 hok
  refine (checks_typedPositions r .output).bind fun outs houts => ?_
  have hin : inputs.length = r.usedCount .input := by
    rw [← length_of_typedPositions hins, ← makeInputs_eq_ok_iff.1 hinputPins, List.length_map]
  have hout : outs.length = r.usedCount .output := length_of_typedPositions houts
  rw [hin, hout]
  refine (checks_checkTable r).bind fun _ _ => ?_
  refine (checks_stateCodes houts fun e => makeOutputs_eq_error_iff).bind fun pins hpins => ?_
  obtain ⟨d, hd⟩ := exists_ofPins hins houts hinputPins hpins
  exact .of_eq_ok hd

end Record

/-- **Which records are accepted.**  A record has a circuit exactly if it is well shaped: its remaps
are not longer than the catalog, used indices have type codes, used state slots the code of power,
there is a row for each assignment of the used inputs, and no row has a bit above the used outputs.
Otherwise the error is the report of the first condition that the record does not meet, in the order
of `Condition.all`, and it names the first index that breaks the condition. -/
theorem circuit_firstReport (r : Record) :
    ((∃ d, r.circuit = .ok d) ↔ r.IsWellShaped) ∧
      ∀ e, r.circuit = .error e ↔ FirstReport r e Condition.all := by
  rw [Record.isWellShaped_iff]
  exact ⟨r.checks_circuit.ok_iff, r.checks_circuit.error_iff⟩

/-- A state slot with a material is reported before an output remap that is too long and a table
without rows. -/
example : Record.circuit ⟨List.replicate 27 0 ++ [4], List.replicate 36 0, List.replicate 28 7, [],
    []⟩ = .error (.stateType (.slot 0) (.other 7)) := rfl

end VoxelLogic
