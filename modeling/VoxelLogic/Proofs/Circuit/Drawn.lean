import VoxelLogic.Proofs.Circuit.Checked
import VoxelLogic.Proofs.Formula.SumOfProducts

/-!
# Random circuits are complete

A random gate takes inputs that the circuit has, and at least one if there is one.  So a random
circuit passes its check, and everything that is computed from its values has a result, whatever
values are drawn.

* `Formula.IsDrawn`: a gate over inputs and negated inputs, or a constant.
* `Formula.exists_drawArguments`, `Formula.isDrawn_draw`: what formulas are drawn.
* `Circuit.exists_draw?_iff`: which random circuits there are.
* `Circuit.exists_isDrawn_of_draw?`: the outputs of a random circuit.
* `Circuit.check_of_draw?`, `Circuit.completes_of_draw?`: random circuits pass their check and are
  complete.
-/

namespace VoxelLogic

variable {σ : Type} {draws : Draws σ} {inputs outputs : Nat} {s : σ}

namespace Formula

/-- A formula that can be drawn for a number of inputs: a constant if there are none, and otherwise
a gate over some of them, negated or not, in their order. -/
inductive IsDrawn : Nat → Formula → Prop
  | const (value : Bool) : IsDrawn 0 (.const value)
  | gate {inputs : Nat} (kind : Connective) {parts : List (Nat × Bool)} (ne_nil : parts ≠ [])
      (increasing : (parts.map Prod.fst).Pairwise (· < ·))
      (lt_inputs : ∀ part ∈ parts, part.1 < inputs) :
      IsDrawn inputs (.gate kind (parts.map fun part => literal part.1 part.2))

/-- The arguments that are drawn are some of the inputs that could be taken, negated or not. -/
theorem exists_drawArguments (draws : Draws σ) (places : List Nat) (s : σ) :
    ∃ parts : List (Nat × Bool), (parts.map Prod.fst).Sublist places ∧
      (drawArguments draws places s).1 = parts.map fun part => literal part.1 part.2 := by
  -- an input that is taken costs one draw more, so the state of the rest can be any
  induction places generalizing s with
  | nil => exact ⟨[], .slnil, rfl⟩
  | cons i places ih =>
    unfold drawArguments
    dsimp only
    split
    · obtain ⟨parts, hplaces, hparts⟩ := ih (draws.flip (draws.coin s).2).2
      refine ⟨(i, !(draws.flip (draws.coin s).2).1) :: parts, hplaces.cons_cons i, ?_⟩
      rw [hparts, List.map_cons, literal]
      cases (draws.flip (draws.coin s).2).1 <;> rfl
    · obtain ⟨parts, hplaces, hparts⟩ := ih (draws.coin s).2
      exact ⟨parts, hplaces.cons i, hparts⟩

/-- A gate over some inputs has arguments. -/
theorem exists_drawSomeArguments (draws : Draws σ) (hinputs : 0 < inputs) (s : σ) :
    ∃ parts : List (Nat × Bool), parts ≠ [] ∧
      (parts.map Prod.fst).Sublist (List.range inputs) ∧
      (drawSomeArguments draws inputs s).1 = parts.map fun part => literal part.1 part.2 := by
  obtain ⟨parts, hplaces, hparts⟩ := exists_drawArguments draws (List.range inputs) s
  rw [drawSomeArguments]
  split
  · next s' hdraw =>
    have hlt := draws.below_lt hinputs s'
    exact ⟨[((draws.below inputs s').1, true)], List.cons_ne_nil _ _,
      List.singleton_sublist.2 (List.mem_range.2 hlt), rfl⟩
  · next e es s' hdraw =>
    rw [hdraw] at hparts
    refine ⟨parts, ?_, hplaces, hparts⟩
    rintro rfl
    cases hparts

/-- A formula is drawn as it can be. -/
theorem isDrawn_draw (inputs : Nat) (s : σ) : (draw draws inputs s).1.IsDrawn inputs := by
  rw [draw]
  split
  · next hzero =>
    subst hzero
    exact .const _
  · next hinputs =>
    obtain ⟨parts, hne, hplaces, hparts⟩ :=
      exists_drawSomeArguments draws (Nat.pos_of_ne_zero hinputs) s
    dsimp only
    rw [hparts]
    refine .gate _ hne (List.pairwise_lt_range.sublist hplaces) fun part hpart => ?_
    exact List.mem_range.1 (hplaces.subset (List.mem_map_of_mem hpart))

/-- A drawn formula reads no input beyond those it was drawn for. -/
theorem IsDrawn.isReadable {f : Formula} (h : f.IsDrawn inputs) : f.isReadable inputs = true := by
  cases h with
  | const value => rfl
  | @gate _ _ parts hne _ hlt =>
    have hempty : (parts.map fun part => literal part.1 part.2).isEmpty = false := by
      rwa [List.isEmpty_map, List.isEmpty_eq_false_iff]
    have hall : allReadable inputs (parts.map fun part => literal part.1 part.2) = true := by
      rw [allReadable_iff, List.forall_mem_map]
      exact fun part hpart => isReadable_literal (hlt part hpart) part.2
    show (!(parts.map fun part => literal part.1 part.2).isEmpty &&
      allReadable inputs (parts.map fun part => literal part.1 part.2)) = true
    rw [hempty, hall]
    rfl

/-- A drawn formula has no look-up table whose mask could fail to fit. -/
theorem IsDrawn.masksFit {f : Formula} (h : f.IsDrawn inputs) : f.masksFit = true := by
  cases h with
  | const value => rfl
  | gate =>
    refine allMasksFit_iff.2 ?_
    rw [List.forall_mem_map]
    exact fun part _ => masksFit_literal part.1 part.2

end Formula

namespace Circuit

variable {c : Circuit}

theorem length_firstSites (h : inputs ≤ Position.siteCount) :
    (firstSites inputs).length = inputs := by
  have hsites : (Position.all.take Position.siteCount).length = Position.siteCount := by decide
  rw [firstSites, List.length_take_of_le (h.trans_eq hsites.symm)]

/-- There is a random circuit unless there are too few sites for its pins. -/
theorem exists_draw?_iff :
    (∃ c, draw? draws inputs outputs s = some c) ↔
      inputs ≤ Position.siteCount ∧ outputs ≤ Position.siteCount := by
  rw [← Option.isSome_iff_exists, draw?]
  split
  · next h => exact iff_of_true rfl h
  · next h => exact iff_of_false Bool.false_ne_true h

theorem length_inputs_of_draw? (h : draw? draws inputs outputs s = some c) :
    c.inputs.length = inputs := by
  obtain ⟨⟨hle, -⟩, hinputs, -⟩ := draw?_eq_some_iff.1 h
  rw [hinputs, List.length_map, length_firstSites hle]

/-- The outputs of a random circuit are of power and given by drawn formulas. -/
theorem exists_isDrawn_of_draw? (h : draw? draws inputs outputs s = some c) {pin : OutputPin}
    (hpin : pin ∈ c.outputs) :
    pin.type = .power ∧ ∃ f, pin.behaviour = .formula f ∧ f.IsDrawn inputs := by
  rw [(draw?_eq_some_iff.1 h).2.2] at hpin
  obtain ⟨p, -, s', rfl⟩ := exists_of_mem_drawOutputs hpin
  exact ⟨rfl, _, rfl, Formula.isDrawn_draw inputs s'⟩

/-- A random circuit has as many inputs as its gates were drawn for, so it passes its check. -/
theorem check_of_draw? (h : draw? draws inputs outputs s = some c) : c.check = .ok () := by
  rw [check_eq_ok_iff]
  intro pin hpin
  obtain ⟨-, f, hbehaviour, hf⟩ := exists_isDrawn_of_draw? h hpin
  rw [length_inputs_of_draw? h, OutputPin.accepts, hbehaviour]
  exact Formula.accepts_of_isReadable hf.isReadable

/-- The masks of a random circuit fit. -/
theorem masksFit_of_draw? (h : draw? draws inputs outputs s = some c) :
    ∀ pin ∈ c.outputs, pin.behaviour.formula?.all (·.masksFit) = true := by
  intro pin hpin
  obtain ⟨-, f, hbehaviour, hf⟩ := exists_isDrawn_of_draw? h hpin
  rw [hbehaviour]
  exact hf.masksFit

theorem completes_of_draw? (h : draw? draws inputs outputs s = some c) : c.Completes := by
  have hmasks : ∀ pin ∈ c.outputs, pin.MasksCover :=
    fun pin hpin => OutputPin.masksCover_of_masksFit (masksFit_of_draw? h pin hpin)
  exact ((isGiven_of_draw? h).isTotal hmasks (check_of_draw? h)).completes

end Circuit

end VoxelLogic
