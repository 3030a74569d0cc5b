import VoxelLogic.Formula.Basic

/-!
# Formulas that can be read back

Formulas exist that can be written but not read: a gate needs at least one argument in a file, and
an input needs a name.

* `Formula.induct`: induction over formulas, with one case for each kind of gate.
* `Formula.isReadable`: whether a formula has no gate without arguments and no input beyond a number
  of inputs.
* `accepts_iff`, `forall_mem_larger_iff`, `forall_mem_largestInputOf?_iff`: bounds on the inputs of
  a formula and of its arguments.
* `accepts_of_isReadable`: such a formula can be used with that many inputs.
-/

namespace VoxelLogic.Formula

/-- A property that passes from the arguments of each gate to the gate holds of every formula. -/
@[induction_eliminator]
theorem induct {motive : Formula → Prop} (const : ∀ value, motive (.const value))
    (input : ∀ place, motive (.input place)) (not : ∀ e, motive e → motive (.not e))
    (gate : ∀ connective es, (∀ e ∈ es, motive e) → motive (.gate connective es))
    (mux : ∀ s x y, motive s → motive x → motive y → motive (.mux s x y))
    (majority : ∀ x y z, motive x → motive y → motive z → motive (.majority x y z))
    (lookUp : ∀ mask es, (∀ e ∈ es, motive e) → motive (.lookUp mask es)) (e : Formula) :
    motive e := by
  refine @Formula.rec motive (fun es => ∀ e ∈ es, motive e) const input not gate mux majority
    lookUp ?_ ?_ e
  · intro e he
    cases he
  · intro first rest hfirst hrest e he
    rcases List.mem_cons.1 he with rfl | hmem
    · exact hfirst
    · exact hrest e hmem

mutual

/-- Whether a formula has no gate without arguments and no input from place `inputs` on. -/
def isReadable (inputs : Nat) : Formula → Bool
  | const _ => true
  | input place => place < inputs
  | not e => isReadable inputs e
  | gate _ es => !es.isEmpty && allReadable inputs es
  | mux s x y => isReadable inputs s && isReadable inputs x && isReadable inputs y
  | majority x y z => isReadable inputs x && isReadable inputs y && isReadable inputs z
  | lookUp _ es => !es.isEmpty && allReadable inputs es

/-- Whether each of some formulas can be read. -/
def allReadable (inputs : Nat) : List Formula → Bool
  | [] => true
  | e :: es => isReadable inputs e && allReadable inputs es

end

theorem allReadable_eq_all (inputs : Nat) (es : List Formula) :
    allReadable inputs es = es.all (isReadable inputs) := by
  induction es with
  | nil => rfl
  | cons e es ih => rw [allReadable, List.all_cons, ih]

theorem allReadable_iff {inputs : Nat} {es : List Formula} :
    allReadable inputs es = true ↔ ∀ e ∈ es, e.isReadable inputs = true := by
  rw [allReadable_eq_all, List.all_eq_true]

/-! ## Inputs -/

variable {inputs : Nat}

theorem accepts_iff {e : Formula} :
    e.accepts inputs = true ↔ ∀ k ∈ e.largestInput?, k < inputs := by
  rw [accepts]
  cases e.largestInput? <;> simp

/-- A bound holds for the larger of two places exactly if it holds for both. -/
theorem forall_mem_larger_iff {i j : Option Nat} :
    (∀ k ∈ larger i j, k < inputs) ↔ (∀ k ∈ i, k < inputs) ∧ ∀ k ∈ j, k < inputs := by
  cases i <;> cases j <;>
    simp only [larger, Option.mem_def, reduceCtorEq, Option.some.injEq, false_implies,
      implies_true, and_true, true_and, forall_eq', Nat.max_lt]

theorem forall_mem_largestInputOf?_iff {es : List Formula} :
    (∀ k ∈ largestInputOf? es, k < inputs) ↔ ∀ e ∈ es, ∀ k ∈ e.largestInput?, k < inputs := by
  induction es with
  | nil => simp [largestInputOf?]
  | cons e es ih => rw [largestInputOf?, forall_mem_larger_iff, ih, List.forall_mem_cons]

/-- A formula that can be read has no input beyond the number of inputs. -/
theorem lt_of_isReadable {e : Formula} (h : e.isReadable inputs = true) :
    ∀ k ∈ e.largestInput?, k < inputs := by
  induction e with
  | const value =>
    intro k hk
    cases hk
  | input place =>
    rintro k ⟨⟩
    exact of_decide_eq_true h
  | not e ih => exact ih h
  | gate connective es ih =>
    obtain ⟨-, hes⟩ := Bool.and_eq_true_iff.1 h
    exact forall_mem_largestInputOf?_iff.2 fun e he => ih e he (allReadable_iff.1 hes e he)
  | mux s x y ihs ihx ihy =>
    obtain ⟨hsx, hy⟩ := Bool.and_eq_true_iff.1 h
    obtain ⟨hs, hx⟩ := Bool.and_eq_true_iff.1 hsx
    exact forall_mem_larger_iff.2 ⟨ihs hs, forall_mem_larger_iff.2 ⟨ihx hx, ihy hy⟩⟩
  | majority x y z ihx ihy ihz =>
    obtain ⟨hxy, hz⟩ := Bool.and_eq_true_iff.1 h
    obtain ⟨hx, hy⟩ := Bool.and_eq_true_iff.1 hxy
    exact forall_mem_larger_iff.2 ⟨ihx hx, forall_mem_larger_iff.2 ⟨ihy hy, ihz hz⟩⟩
  | lookUp mask es ih =>
    obtain ⟨-, hes⟩ := Bool.and_eq_true_iff.1 h
    exact forall_mem_largestInputOf?_iff.2 fun e he => ih e he (allReadable_iff.1 hes e he)

/-- A circuit has enough inputs for a formula that can be read over them. -/
theorem accepts_of_isReadable {e : Formula} (h : e.isReadable inputs = true) :
    e.accepts inputs = true :=
  accepts_iff.2 (lt_of_isReadable h)

end VoxelLogic.Formula
