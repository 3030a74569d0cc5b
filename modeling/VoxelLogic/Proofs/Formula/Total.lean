import VoxelLogic.Formula.Value
import VoxelLogic.Proofs.Formula.Mask
import VoxelLogic.Proofs.Formula.Parts

/-!
# Formulas with a value

A formula has a value at every assignment that gives one to each of its inputs, if none of its
look-up tables has more arguments than its mask has been made for.

* `Mask.isSome_lookUp?`: a mask has the bit that as many values as its arity choose, or fewer.
* `isSome_conjunction?`, `isSome_disjunction?`, `isSome_allValues?`: asking for arguments that have
  values.
* `isSome_value?_of_accepts`: an accepted formula has a value.
-/

namespace VoxelLogic

/-- **A mask has the bit that values choose, unless there are more of them than its arity.** -/
theorem Mask.isSome_lookUp? {mask : Mask} {vs : List Bool} (h : vs.length ≤ mask.arity) :
    (mask.lookUp? vs).isSome = true := by
  have hbit : combination vs < 2 ^ mask.arity :=
    Nat.lt_of_lt_of_le (combination_lt vs) (Nat.pow_le_pow_right (by decide) h)
  rw [lookUp?, if_pos (Nat.le_trans h mask.arity_le)]
  exact isSome_bit?_iff.2 hbit

namespace Formula

variable {a : Assignment} {es : List Formula}

/-! ## Arguments -/

theorem isSome_conjunction? (h : ∀ e ∈ es, (e.value? a).isSome = true) :
    (conjunction? a es).isSome = true := by
  induction es with
  | nil => rfl
  | cons e es ih =>
    rw [List.forall_mem_cons] at h
    obtain ⟨v, hv⟩ := Option.isSome_iff_exists.1 h.1
    rw [conjunction?, hv]
    cases v with
    | true => exact ih h.2
    | false => rfl

theorem isSome_disjunction? (h : ∀ e ∈ es, (e.value? a).isSome = true) :
    (disjunction? a es).isSome = true := by
  induction es with
  | nil => rfl
  | cons e es ih =>
    rw [List.forall_mem_cons] at h
    obtain ⟨v, hv⟩ := Option.isSome_iff_exists.1 h.1
    rw [disjunction?, hv]
    cases v with
    | true => rfl
    | false => exact ih h.2

theorem isSome_allValues? (h : ∀ e ∈ es, (e.value? a).isSome = true) :
    (allValues? a es).isSome = true := by
  induction es with
  | nil => rfl
  | cons e es ih =>
    rw [List.forall_mem_cons] at h
    obtain ⟨v, hv⟩ := Option.isSome_iff_exists.1 h.1
    rw [allValues?, hv, Option.isSome_map]
    exact ih h.2

theorem length_of_allValues? {vs : List Bool} (h : allValues? a es = some vs) :
    vs.length = es.length := by
  induction es generalizing vs with
  | nil =>
    cases h
    rfl
  | cons e es ih =>
    rw [allValues?] at h
    split at h
    · cases h
    · obtain ⟨rest, hrest, rfl⟩ := Option.map_eq_some_iff.1 h
      rw [List.length_cons, List.length_cons, ih hrest]

/-! ## Gates -/

/-- A gate whose arguments have values has a value. -/
theorem isSome_value?_gate {connective : Connective} (h : ∀ e ∈ es, (e.value? a).isSome = true) :
    ((gate connective es).value? a).isSome = true := by
  cases connective with
  | and => exact isSome_conjunction? h
  | or => exact isSome_disjunction? h
  | nand =>
    rw [value?, Option.isSome_map]
    exact isSome_conjunction? h
  | nor =>
    rw [value?, Option.isSome_map]
    exact isSome_disjunction? h
  | xor =>
    rw [value?, Option.isSome_map]
    exact isSome_allValues? h
  | xnor =>
    rw [value?, Option.isSome_map]
    exact isSome_allValues? h

/-- A look-up table whose arguments have values has a value if its mask has been made for so many
arguments. -/
theorem isSome_value?_lookUp {mask : Mask} (h : ∀ e ∈ es, (e.value? a).isSome = true)
    (hlength : es.length ≤ mask.arity) : ((lookUp mask es).value? a).isSome = true := by
  obtain ⟨vs, hvs⟩ := Option.isSome_iff_exists.1 (isSome_allValues? h)
  rw [value?, hvs, Option.bind_some]
  exact Mask.isSome_lookUp? (Nat.le_trans (Nat.le_of_eq (length_of_allValues? hvs)) hlength)

/-- A formula has a value if the assignment is longer than each of its inputs and its masks cover
the arguments of their tables. -/
theorem isSome_value? {e : Formula} (hmasks : e.MasksCover)
    (h : ∀ k ∈ e.largestInput?, k < a.length) : (e.value? a).isSome = true := by
  induction e with
  | const value => rfl
  | input place =>
    rw [value?, List.getElem?_eq_getElem (h place rfl)]
    rfl
  | not e ih =>
    rw [value?, Option.isSome_map]
    exact ih (hmasks.of_mem_arguments List.mem_cons_self) h
  | gate connective es ih =>
    have hes := forall_mem_largestInputOf?_iff.1 h
    exact isSome_value?_gate fun e he => ih e he (hmasks.of_mem_arguments he) (hes e he)
  | mux s x y ihs ihx ihy =>
    obtain ⟨hs, hxy⟩ := forall_mem_larger_iff.1 h
    obtain ⟨hx, hy⟩ := forall_mem_larger_iff.1 hxy
    obtain ⟨hms, hmx, hmy⟩ := forall_mem_three.1 fun _ => hmasks.of_mem_arguments
    obtain ⟨v, hv⟩ := Option.isSome_iff_exists.1 (ihs hms hs)
    rw [value?, hv]
    cases v with
    | true => exact ihx hmx hx
    | false => exact ihy hmy hy
  | majority x y z ihx ihy ihz =>
    obtain ⟨hx, hyz⟩ := forall_mem_larger_iff.1 h
    obtain ⟨hy, hz⟩ := forall_mem_larger_iff.1 hyz
    obtain ⟨hmx, hmy, hmz⟩ := forall_mem_three.1 fun _ => hmasks.of_mem_arguments
    obtain ⟨u, hu⟩ := Option.isSome_iff_exists.1 (ihx hmx hx)
    obtain ⟨v, hv⟩ := Option.isSome_iff_exists.1 (ihy hmy hy)
    obtain ⟨w, hw⟩ := Option.isSome_iff_exists.1 (ihz hmz hz)
    rw [value?, hu, hv, hw]
    rfl
  | lookUp mask es ih =>
    have hes := forall_mem_largestInputOf?_iff.1 h
    exact isSome_value?_lookUp (fun e he => ih e he (hmasks.of_mem_arguments he) (hes e he))
      (hmasks mask es .self)

/-- **A formula that is accepted with the length of an assignment has a value there**, if its masks
cover the arguments of their tables. -/
theorem isSome_value?_of_accepts {e : Formula} (hmasks : e.MasksCover)
    (h : e.accepts a.length = true) : (e.value? a).isSome = true :=
  isSome_value? hmasks (accepts_iff.1 h)

end Formula

end VoxelLogic
