import VoxelLogic.Proofs.Record.Pins

/-!
# Repeated positions

Setting the inputs or the outputs of a circuit fails if a position stands twice in the list, and the
error tells which one and where.

* `IsFirstRepeat`: where a list of positions repeats one for the first time.
* `firstRepeat?_eq_some_iff`: the search finds just that.
* `ReplacesSide`: how setting one side of a circuit succeeds and how it fails.
* `replacesSide_withInputs`, `replacesSide_withOutputs`: both sides are set so.
-/

namespace VoxelLogic

/-! ## The first repeat -/

/-- The item at index `i` is `p`, which occurs before, and no index before `i` is like that. -/
structure IsFirstRepeat (ps : List Position) (i : Nat) (p : Position) : Prop where
  getElem?_eq : ps[i]? = some p
  mem_take : p ∈ ps.take i
  notMem_take : ∀ j < i, ∀ q, ps[j]? = some q → q ∉ ps.take j

/-- The same for items that occur before in a list that goes on after others. -/
structure IsFirstRepeatAfter (seen ps : List Position) (i : Nat) (p : Position) : Prop where
  getElem?_eq : ps[i]? = some p
  mem : p ∈ seen ∨ p ∈ ps.take i
  notMem : ∀ j < i, ∀ q, ps[j]? = some q → q ∉ seen ∧ q ∉ ps.take j

variable {seen ps : List Position} {p x : Position} {i : Nat}

theorem isFirstRepeatAfter_nil_iff : IsFirstRepeatAfter [] ps i p ↔ IsFirstRepeat ps i p := by
  constructor
  · rintro ⟨hget, hmem, hnot⟩
    exact ⟨hget, hmem.resolve_left List.not_mem_nil, fun j hj q hq => (hnot j hj q hq).2⟩
  · rintro ⟨hget, hmem, hnot⟩
    exact ⟨hget, .inr hmem, fun j hj q hq => ⟨List.not_mem_nil, hnot j hj q hq⟩⟩

theorem isFirstRepeatAfter_cons_of_mem (hx : x ∈ seen) :
    IsFirstRepeatAfter seen (x :: ps) i p ↔ i = 0 ∧ p = x := by
  constructor
  · rintro ⟨hget, hmem, hnot⟩
    cases i with
    | zero => exact ⟨rfl, (Option.some.inj hget).symm⟩
    | succ i => exact absurd hx (hnot 0 (Nat.succ_pos i) x rfl).1
  · rintro ⟨rfl, rfl⟩
    exact ⟨rfl, .inl hx, fun j hj => absurd hj (Nat.not_lt_zero j)⟩

theorem isFirstRepeatAfter_cons_of_notMem (hx : x ∉ seen) :
    IsFirstRepeatAfter seen (x :: ps) i p ↔
      ∃ j, i = j + 1 ∧ IsFirstRepeatAfter (x :: seen) ps j p := by
  constructor
  · rintro ⟨hget, hmem, hnot⟩
    cases i with
    | zero =>
      obtain rfl : x = p := Option.some.inj hget
      exact absurd (hmem.resolve_right List.not_mem_nil) hx
    | succ i =>
      refine ⟨i, rfl, hget, ?_, fun j hj q hq => ?_⟩
      · rw [List.take_succ_cons, List.mem_cons] at hmem
        rw [List.mem_cons]
        rcases hmem with hseen | rfl | htake
        · exact .inl (.inr hseen)
        · exact .inl (.inl rfl)
        · exact .inr htake
      · obtain ⟨hseen, htake⟩ := hnot (j + 1) (Nat.succ_lt_succ hj) q hq
        rw [List.take_succ_cons, List.mem_cons, not_or] at htake
        exact ⟨List.not_mem_cons_of_ne_of_not_mem htake.1 hseen, htake.2⟩
  · rintro ⟨i, rfl, hget, hmem, hnot⟩
    refine ⟨hget, ?_, fun j hj q hq => ?_⟩
    · rw [List.take_succ_cons, List.mem_cons]
      rw [List.mem_cons] at hmem
      rcases hmem with (rfl | hseen) | htake
      · exact .inr (.inl rfl)
      · exact .inl hseen
      · exact .inr (.inr htake)
    · cases j with
      | zero =>
        obtain rfl : x = q := Option.some.inj hq
        exact ⟨hx, List.not_mem_nil⟩
      | succ j =>
        obtain ⟨hseen, htake⟩ := hnot j (Nat.lt_of_succ_lt_succ hj) q hq
        rw [List.mem_cons, not_or] at hseen
        rw [List.take_succ_cons]
        exact ⟨hseen.2, List.not_mem_cons_of_ne_of_not_mem hseen.1 htake⟩

theorem firstRepeatAfter?_eq_some_iff {k : Nat} :
    firstRepeatAfter? seen ps = some (p, k) ↔
      ∃ i, k = seen.length + i ∧ IsFirstRepeatAfter seen ps i p := by
  induction ps generalizing seen with
  | nil =>
    constructor
    · nofun
    · rintro ⟨i, -, hget, -⟩
      cases hget
  | cons x ps ih =>
    by_cases hx : x ∈ seen
    · rw [firstRepeatAfter?, if_pos hx, Option.some.injEq, Prod.mk.injEq]
      simp only [isFirstRepeatAfter_cons_of_mem hx]
      constructor
      · rintro ⟨rfl, rfl⟩
        exact ⟨0, rfl, rfl, rfl⟩
      · rintro ⟨i, rfl, rfl, rfl⟩
        exact ⟨rfl, rfl⟩
    · rw [firstRepeatAfter?, if_neg hx, ih]
      simp only [isFirstRepeatAfter_cons_of_notMem hx, List.length_cons]
      constructor
      · rintro ⟨j, rfl, hj⟩
        exact ⟨j + 1, by omega, j, rfl, hj⟩
      · rintro ⟨i, rfl, j, rfl, hj⟩
        exact ⟨j, by omega, hj⟩

/-- The first repeat of a list is found with its index. -/
theorem firstRepeat?_eq_some_iff : firstRepeat? ps = some (p, i) ↔ IsFirstRepeat ps i p := by
  rw [firstRepeat?, firstRepeatAfter?_eq_some_iff]
  simp only [isFirstRepeatAfter_nil_iff, List.length_nil, Nat.zero_add]
  constructor
  · rintro ⟨j, rfl, hj⟩
    exact hj
  · intro h
    exact ⟨i, rfl, h⟩

/-! ## Setting one side -/

/-- Setting a side of a circuit to pins at some positions fails exactly if the positions repeat, and
then it reports the first repeat; otherwise it gives the circuit that it is asked for. -/
structure ReplacesSide (positions : List Position) (IsAsked : Circuit → Prop)
    (result : Except Error Circuit) : Prop where
  fails_iff : (∃ e, result = .error e) ↔ ¬ positions.Nodup
  error_iff : ∀ e, result = .error e ↔
    ∃ i p, IsFirstRepeat positions i p ∧ e = .repeatedPosition p i
  ok_iff : ∀ d, result = .ok d ↔ IsAsked d

theorem exists_isFirstRepeat_iff : (∃ i p, IsFirstRepeat ps i p) ↔ ¬ ps.Nodup := by
  rw [← firstRepeat?_eq_none_iff, ← Ne, Option.ne_none_iff_exists']
  constructor
  · rintro ⟨i, p, h⟩
    exact ⟨(p, i), firstRepeat?_eq_some_iff.2 h⟩
  · rintro ⟨⟨p, i⟩, h⟩
    exact ⟨i, p, firstRepeat?_eq_some_iff.1 h⟩

/-- A side is set as it should be if the first repeat is reported and nothing else is. -/
theorem ReplacesSide.of_firstRepeat? {positions : List Position} {IsAsked : Circuit → Prop}
    {result : Except Error Circuit}
    (hrepeat : ∀ p i, firstRepeat? positions = some (p, i) →
      result = .error (.repeatedPosition p i))
    (hnodup : positions.Nodup → ∃ d, result = .ok d) (hok : ∀ d, result = .ok d ↔ IsAsked d) :
    ReplacesSide positions IsAsked result := by
  have herror : ∀ e, result = .error e ↔
      ∃ i p, IsFirstRepeat positions i p ∧ e = .repeatedPosition p i := by
    intro e
    constructor
    · intro he
      have hnot : ¬ positions.Nodup := by
        intro hdistinct
        obtain ⟨d, hd⟩ := hnodup hdistinct
        rw [he] at hd
        cases hd
      obtain ⟨i, p, h⟩ := exists_isFirstRepeat_iff.2 hnot
      rw [hrepeat p i (firstRepeat?_eq_some_iff.2 h)] at he
      exact ⟨i, p, h, (Except.error.inj he).symm⟩
    · rintro ⟨i, p, h, rfl⟩
      exact hrepeat p i (firstRepeat?_eq_some_iff.2 h)
  refine ⟨?_, herror, hok⟩
  rw [← exists_isFirstRepeat_iff]
  constructor
  · rintro ⟨e, he⟩
    obtain ⟨i, p, h, -⟩ := (herror e).1 he
    exact ⟨i, p, h⟩
  · rintro ⟨i, p, h⟩
    exact ⟨_, (herror _).2 ⟨i, p, h, rfl⟩⟩

namespace Circuit

/-- Inputs are set if they repeat no position. -/
theorem replacesSide_withInputs (c : Circuit) (pins : List InputPin) :
    ReplacesSide (pins.map InputPin.position) (fun d => d.inputs = pins ∧ d.outputs = c.outputs)
      (c.withInputs pins) := by
  refine .of_firstRepeat? (fun p i h => ?_) (fun h => ?_) fun d => withInputs_eq_ok_iff
  · unfold withInputs
    split
    · next h' =>
      rw [h] at h'
      cases h'
      rfl
    · next h' =>
      rw [h] at h'
      cases h'
  · exact ⟨⟨pins, c.outputs, h, c.outputs_nodup⟩, withInputs_eq_ok_iff.2 ⟨rfl, rfl⟩⟩

/-- Outputs are set if they repeat no position. -/
theorem replacesSide_withOutputs (c : Circuit) (pins : List OutputPin) :
    ReplacesSide (pins.map OutputPin.position) (fun d => d.outputs = pins ∧ d.inputs = c.inputs)
      (c.withOutputs pins) := by
  refine .of_firstRepeat? (fun p i h => ?_) (fun h => ?_) fun d => withOutputs_eq_ok_iff
  · unfold withOutputs
    split
    · next h' =>
      rw [h] at h'
      cases h'
      rfl
    · next h' =>
      rw [h] at h'
      cases h'
  · exact ⟨⟨c.inputs, pins, c.inputs_nodup, h⟩, withOutputs_eq_ok_iff.2 ⟨rfl, rfl⟩⟩

end Circuit

end VoxelLogic
