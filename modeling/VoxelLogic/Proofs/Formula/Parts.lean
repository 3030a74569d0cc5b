import VoxelLogic.Proofs.Formula.Readable

/-!
# Parts of a formula

What must hold of every gate of a formula is said of the formulas that occur in it, at any depth.

* `Occurs`: a formula occurs in another.
* `IsSound`: no input beyond a number of inputs occurs in a formula, no gate without arguments and
  no mask of the wrong size.
* `MasksCover`, `MasksReadBack`: two weaker conditions on the masks of a formula, one for evaluation
  and one for files.
* `isReadable_iff_arguments`, `masksFit_iff_arguments`: the tests of a formula by its arguments.
* `Occurs.isReadable`, `Occurs.masksFit`: the two tests pass from a formula to its parts.
* `accepts_iff_forall_occurs`: a formula is accepted if there are enough inputs for all its parts.
* `masksFit_iff_forall_occurs`: the masks of a formula fit if those of all its parts do.
* `isSound_iff`: the two tests together decide whether a formula is sound.
-/

namespace VoxelLogic.Formula

/-- A formula occurs in itself and in every formula that it occurs in an argument of. -/
inductive Occurs (part : Formula) : Formula → Prop where
  | self : Occurs part part
  | argument {x e : Formula} (hx : x ∈ e.arguments) (h : Occurs part x) : Occurs part e

/-- A formula that can be evaluated over a number of inputs, and written and read again. -/
structure IsSound (inputs : Nat) (e : Formula) : Prop where
  input_lt : ∀ k, Occurs (.input k) e → k < inputs
  gate_ne_nil : ∀ connective es, Occurs (.gate connective es) e → es ≠ []
  lookUp_ne_nil : ∀ mask es, Occurs (.lookUp mask es) e → es ≠ []
  mask_fits : ∀ mask es, Occurs (.lookUp mask es) e → mask.fits es.length = true

/-- No look-up table in a formula has more arguments than its mask has been made for, so the mask
has every bit that they can choose. -/
def MasksCover (e : Formula) : Prop :=
  ∀ mask es, Occurs (.lookUp mask es) e → es.length ≤ mask.arity

/-- The mask of every look-up table in a formula is read back from its text, for the arguments of
the table.  Nothing is said of tables without arguments, which no file can have. -/
def MasksReadBack (e : Formula) : Prop :=
  ∀ mask es, Occurs (.lookUp mask es) e → es ≠ [] →
    Mask.ofText? es.length mask.text.toList = some mask

variable {inputs : Nat} {part e : Formula}

/-! ## What passes to the parts -/

theorem MasksCover.of_mem_arguments (h : e.MasksCover) {x : Formula} (hx : x ∈ e.arguments) :
    x.MasksCover :=
  fun mask es hes => h mask es (.argument hx hes)

theorem MasksReadBack.of_mem_arguments (h : e.MasksReadBack) {x : Formula}
    (hx : x ∈ e.arguments) : x.MasksReadBack :=
  fun mask es hes => h mask es (.argument hx hes)

/-- What holds of the arguments of a multiplexer or a majority holds of each of the three. -/
theorem forall_mem_three {motive : Formula → Prop} {x y z : Formula} :
    (∀ e ∈ [x, y, z], motive e) ↔ motive x ∧ motive y ∧ motive z := by
  rw [List.forall_mem_cons, List.forall_mem_cons, List.forall_mem_singleton]

/-- Whether a formula can be read is decided by what stands at its head and by its arguments. -/
theorem isReadable_iff_arguments :
    e.isReadable inputs = true ↔
      (∀ k, e = .input k → k < inputs) ∧ (∀ connective es, e = .gate connective es → es ≠ []) ∧
        (∀ mask es, e = .lookUp mask es → es ≠ []) ∧
        ∀ x ∈ e.arguments, x.isReadable inputs = true := by
  cases e <;> simp [isReadable, allReadable_iff, arguments, and_assoc]

/-- The masks of a formula fit if its own does, if it has one, and those of its arguments do. -/
theorem masksFit_iff_arguments :
    e.masksFit = true ↔
      (∀ mask es, e = .lookUp mask es → mask.fits es.length = true) ∧
        ∀ x ∈ e.arguments, x.masksFit = true := by
  cases e <;> simp [masksFit, allMasksFit_iff, arguments, and_assoc]

/-- Every part of a formula that can be read can be read. -/
theorem Occurs.isReadable (h : Occurs part e) (he : e.isReadable inputs = true) :
    part.isReadable inputs = true := by
  induction h with
  | self => exact he
  | argument hx _ ih =>
    obtain ⟨-, -, -, harguments⟩ := isReadable_iff_arguments.1 he
    exact ih (harguments _ hx)

/-- The masks fit in every part of a formula in which they fit. -/
theorem Occurs.masksFit (h : Occurs part e) (he : e.masksFit = true) : part.masksFit = true := by
  induction h with
  | self => exact he
  | argument hx _ ih => exact ih ((masksFit_iff_arguments.1 he).2 _ hx)

/-! ## Accepted formulas -/

/-- A property that passes from the arguments of every formula to the formula holds of them all. -/
theorem induct_arguments {motive : Formula → Prop}
    (step : ∀ e, (∀ x ∈ e.arguments, motive x) → motive e) (e : Formula) : motive e := by
  induction e with
  | const value => exact step _ nofun
  | input place => exact step _ nofun
  | not e ih => exact step _ (List.forall_mem_singleton.2 ih)
  | gate connective es ih => exact step _ ih
  | mux s x y ihs ihx ihy => exact step _ (forall_mem_three.2 ⟨ihs, ihx, ihy⟩)
  | majority x y z ihx ihy ihz => exact step _ (forall_mem_three.2 ⟨ihx, ihy, ihz⟩)
  | lookUp mask es ih => exact step _ ih

/-- A formula other than an input is accepted if its arguments are. -/
theorem accepts_iff_arguments (he : ∀ place, e ≠ .input place) :
    e.accepts inputs = true ↔ ∀ x ∈ e.arguments, x.accepts inputs = true := by
  simp only [accepts_iff]
  cases e with
  | const value => exact iff_of_true nofun nofun
  | input place => exact absurd rfl (he place)
  | not e => rw [arguments, List.forall_mem_singleton, largestInput?]
  | gate connective es => exact forall_mem_largestInputOf?_iff
  | mux s x y =>
    rw [largestInput?, forall_mem_larger_iff, forall_mem_larger_iff, arguments, forall_mem_three]
  | majority x y z =>
    rw [largestInput?, forall_mem_larger_iff, forall_mem_larger_iff, arguments, forall_mem_three]
  | lookUp mask es => exact forall_mem_largestInputOf?_iff

/-- Every part of an accepted formula is accepted. -/
theorem Occurs.accepts (h : Occurs part e) (he : e.accepts inputs = true) :
    part.accepts inputs = true := by
  induction h with
  | self => exact he
  | argument hx _ ih =>
    refine ih ((accepts_iff_arguments ?_).1 he _ hx)
    rintro place rfl
    cases hx

/-- The largest input decides whether all inputs that occur in a formula are there. -/
theorem accepts_iff_forall_occurs :
    e.accepts inputs = true ↔ ∀ k, Occurs (.input k) e → k < inputs := by
  constructor
  · exact fun h k hk => of_decide_eq_true (hk.accepts h)
  · induction e using induct_arguments with
    | step e ih =>
      intro h
      by_cases hinput : ∃ place, e = .input place
      · obtain ⟨place, rfl⟩ := hinput
        exact decide_eq_true (h place .self)
      · rw [accepts_iff_arguments (not_exists.1 hinput)]
        exact fun x hx => ih x hx fun k hk => h k (.argument hx hk)

/-! ## Masks -/

theorem masksFit_of_forall_occurs
    (h : ∀ mask es, Occurs (.lookUp mask es) e → mask.fits es.length = true) :
    e.masksFit = true := by
  induction e using induct_arguments with
  | step e ih =>
    refine masksFit_iff_arguments.2 ⟨?_, fun x hx => ih x hx fun mask es hes => ?_⟩
    · rintro mask es rfl
      exact h mask es .self
    · exact h mask es (.argument hx hes)

/-- The masks of a formula fit if the mask of every look-up table that occurs in it does. -/
theorem masksFit_iff_forall_occurs :
    e.masksFit = true ↔ ∀ mask es, Occurs (.lookUp mask es) e → mask.fits es.length = true :=
  ⟨fun h _ _ hes => (Bool.and_eq_true_iff.1 (hes.masksFit h)).1, masksFit_of_forall_occurs⟩

theorem masksCover_of_masksFit (h : e.masksFit = true) : e.MasksCover := by
  intro mask es hes
  have harity := Mask.fits_iff.1 (masksFit_iff_forall_occurs.1 h mask es hes)
  exact Nat.le_of_eq harity.symm

theorem masksReadBack_of_masksFit (h : e.masksFit = true) : e.MasksReadBack :=
  fun mask es hes _ => Mask.ofText?_text (masksFit_iff_forall_occurs.1 h mask es hes)

/-! ## Sound formulas -/

theorem IsSound.of_mem_arguments (h : e.IsSound inputs) {x : Formula} (hx : x ∈ e.arguments) :
    x.IsSound inputs where
  input_lt k hk := h.input_lt k (.argument hx hk)
  gate_ne_nil connective es hes := h.gate_ne_nil connective es (.argument hx hes)
  lookUp_ne_nil mask es hes := h.lookUp_ne_nil mask es (.argument hx hes)
  mask_fits mask es hes := h.mask_fits mask es (.argument hx hes)

theorem IsSound.isReadable (h : e.IsSound inputs) : e.isReadable inputs = true := by
  induction e using induct_arguments with
  | step e ih =>
    refine isReadable_iff_arguments.2
      ⟨?_, ?_, ?_, fun x hx => ih x hx (h.of_mem_arguments hx)⟩
    · rintro k rfl
      exact h.input_lt k .self
    · rintro connective es rfl
      exact h.gate_ne_nil connective es .self
    · rintro mask es rfl
      exact h.lookUp_ne_nil mask es .self

/-- The tests for inputs, for missing arguments and for masks decide whether a formula is sound. -/
theorem isSound_iff : e.IsSound inputs ↔ e.isReadable inputs = true ∧ e.masksFit = true := by
  constructor
  · exact fun h => ⟨h.isReadable, masksFit_iff_forall_occurs.2 h.mask_fits⟩
  · rintro ⟨hreadable, hmasks⟩
    constructor
    · intro k hk
      exact of_decide_eq_true (hk.isReadable hreadable)
    · rintro connective es hes rfl
      cases hes.isReadable hreadable
    · rintro mask es hes rfl
      cases hes.isReadable hreadable
    · exact masksFit_iff_forall_occurs.1 hmasks

end VoxelLogic.Formula
