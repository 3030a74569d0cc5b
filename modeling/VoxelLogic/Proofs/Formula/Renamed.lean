import VoxelLogic.Formula.Value
import VoxelLogic.Proofs.Formula.Readable

/-!
# Formulas over renamed inputs

When the inputs of a circuit are listed in another order, a formula that reads them by place is
renamed.  It has its old value when the values of the inputs move with their places.

* `value?_gate_congr`, `value?_lookUp_congr`: the value of a gate depends on the values of its
  arguments only.
* `rename`: a formula with other places for its inputs.
* `value?_rename`: its value.
-/

namespace VoxelLogic.Formula

variable {a b : Assignment} {es fs : List Formula}

/-! ## Values of arguments -/

theorem conjunction?_congr (h : es.map (value? a) = fs.map (value? b)) :
    conjunction? a es = conjunction? b fs := by
  induction es generalizing fs with
  | nil =>
    obtain rfl : fs = [] := by simpa using h.symm
    rfl
  | cons e es ih =>
    obtain ⟨f, rest, rfl, hf, hrest⟩ := List.map_eq_cons_iff.1 h.symm
    rw [conjunction?, conjunction?, hf, ih hrest.symm]

theorem disjunction?_congr (h : es.map (value? a) = fs.map (value? b)) :
    disjunction? a es = disjunction? b fs := by
  induction es generalizing fs with
  | nil =>
    obtain rfl : fs = [] := by simpa using h.symm
    rfl
  | cons e es ih =>
    obtain ⟨f, rest, rfl, hf, hrest⟩ := List.map_eq_cons_iff.1 h.symm
    rw [disjunction?, disjunction?, hf, ih hrest.symm]

theorem allValues?_congr (h : es.map (value? a) = fs.map (value? b)) :
    allValues? a es = allValues? b fs := by
  induction es generalizing fs with
  | nil =>
    obtain rfl : fs = [] := by simpa using h.symm
    rfl
  | cons e es ih =>
    obtain ⟨f, rest, rfl, hf, hrest⟩ := List.map_eq_cons_iff.1 h.symm
    rw [allValues?, allValues?, hf, ih hrest.symm]

/-- The value of a gate depends on the values of its arguments only. -/
theorem value?_gate_congr (h : es.map (value? a) = fs.map (value? b)) (connective : Connective) :
    (gate connective es).value? a = (gate connective fs).value? b := by
  cases connective with
  | and => exact conjunction?_congr h
  | or => exact disjunction?_congr h
  | nand => rw [value?, value?, conjunction?_congr h]
  | nor => rw [value?, value?, disjunction?_congr h]
  | xor => rw [value?, value?, allValues?_congr h]
  | xnor => rw [value?, value?, allValues?_congr h]

/-- The value of a look-up table depends on the values of its arguments only. -/
theorem value?_lookUp_congr (h : es.map (value? a) = fs.map (value? b)) (mask : Mask) :
    (lookUp mask es).value? a = (lookUp mask fs).value? b := by
  rw [value?, value?, allValues?_congr h]

/-! ## Renaming -/

mutual

/-- A formula with other places for its inputs. -/
def rename (σ : Nat → Nat) : Formula → Formula
  | const value => const value
  | input place => input (σ place)
  | not e => not (rename σ e)
  | gate connective es => gate connective (renameAll σ es)
  | mux s x y => mux (rename σ s) (rename σ x) (rename σ y)
  | majority x y z => majority (rename σ x) (rename σ y) (rename σ z)
  | lookUp mask es => lookUp mask (renameAll σ es)

/-- Formulas with other places for their inputs. -/
def renameAll (σ : Nat → Nat) : List Formula → List Formula
  | [] => []
  | e :: es => rename σ e :: renameAll σ es

end

variable {σ : Nat → Nat}

theorem renameAll_eq_map (σ : Nat → Nat) (es : List Formula) :
    renameAll σ es = es.map (rename σ) := by
  induction es with
  | nil => rfl
  | cons e es ih => rw [renameAll, ih, List.map_cons]

/-- **A renamed formula has its old value when the values of the inputs move with their places.** -/
theorem value?_rename (h : ∀ i, b[σ i]? = a[i]?) (e : Formula) :
    (e.rename σ).value? b = e.value? a := by
  have hall {es : List Formula} (ih : ∀ e ∈ es, (e.rename σ).value? b = e.value? a) :
      (renameAll σ es).map (value? b) = es.map (value? a) := by
    rw [renameAll_eq_map, List.map_map]
    exact List.map_congr_left ih
  induction e with
  | const value => rfl
  | input place => exact h place
  | not e ih => rw [rename, value?, value?, ih]
  | gate connective es ih => exact value?_gate_congr (hall ih) connective
  | mux s x y ihs ihx ihy => rw [rename, value?, value?, ihs, ihx, ihy]
  | majority x y z ihx ihy ihz => rw [rename, value?, value?, ihx, ihy, ihz]
  | lookUp mask es ih => exact value?_lookUp_congr (hall ih) mask

end VoxelLogic.Formula
