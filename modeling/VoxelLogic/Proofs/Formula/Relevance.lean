import VoxelLogic.Formula.Value
import VoxelLogic.Proofs.Formula.Parts
import VoxelLogic.Proofs.Formula.Total
import Mathlib.Order.Bounds.Basic

/-!
# Which inputs a formula depends on

Evaluation stops where an input is missing, or a bit of a mask, but only if it asks for it, and what
it asks for depends on the values it has found before.  A second assignment that knows every input
of a formula that the first one knows leads evaluation along the same way, so it finds the same
value.

* `largestInput?_eq_some_iff`, `largestInput?_eq_none_iff`: the largest input that occurs.
* `conjunction?_mono`, `disjunction?_mono`, `allValues?_mono`: asking for arguments when more is
  known.
* `value?_mono`: what is found with some inputs is found with more.
* `value?_eq_of_occurs`: only inputs that occur in a formula matter.
* `value?_relevance`: these together, with the inputs that decide the value of an accepted formula.
-/

namespace VoxelLogic.Formula

variable {a b : Assignment} {e : Formula} {es : List Formula}

/-! ## The largest input -/

theorem largestInput?_eq_none_iff : e.largestInput? = none ↔ ∀ k, ¬ Occurs (.input k) e := by
  have haccepts : e.accepts 0 = true ↔ ∀ k, ¬ Occurs (.input k) e := by
    rw [accepts_iff_forall_occurs]
    exact forall_congr' fun k => imp_congr_right fun _ => iff_of_false (Nat.not_lt_zero k) id
  rw [← haccepts, accepts_iff, Option.eq_none_iff_forall_not_mem]
  exact forall_congr' fun k => imp_congr_right fun _ => (iff_of_false (Nat.not_lt_zero k) id).symm

/-- Whether a formula is accepted tells its largest input. -/
theorem isGreatest_of_largestInput? {m : Nat} (h : e.largestInput? = some m) :
    IsGreatest {k | Occurs (.input k) e} m := by
  have haccepts (n : Nat) : m < n ↔ ∀ k, Occurs (.input k) e → k < n := by
    rw [← accepts_iff_forall_occurs, accepts, h, decide_eq_true_iff]
  have hle : ∀ k, Occurs (.input k) e → k ≤ m :=
    fun k hk => Nat.le_of_lt_succ ((haccepts (m + 1)).1 (Nat.lt_succ_self m) k hk)
  refine ⟨by_contra fun hnot => ?_, hle⟩
  refine Nat.lt_irrefl m ((haccepts m).2 fun k hk => lt_of_le_of_ne (hle k hk) ?_)
  rintro rfl
  exact hnot hk

theorem largestInput?_eq_some_iff {m : Nat} :
    e.largestInput? = some m ↔ IsGreatest {k | Occurs (.input k) e} m := by
  refine ⟨isGreatest_of_largestInput?, fun h => ?_⟩
  cases hlargest : e.largestInput? with
  | none => exact absurd h.1 (largestInput?_eq_none_iff.1 hlargest m)
  | some n => rw [(isGreatest_of_largestInput? hlargest).unique h]

/-! ## Asking for arguments -/

theorem conjunction?_mono (h : ∀ e ∈ es, ∀ v ∈ e.value? a, v ∈ e.value? b) :
    ∀ v ∈ conjunction? a es, v ∈ conjunction? b es := by
  induction es with
  | nil => exact fun _ hv => hv
  | cons e es ih =>
    rw [List.forall_mem_cons] at h
    intro v hv
    cases hfirst : e.value? a with
    | none => simp [conjunction?, hfirst] at hv
    | some first =>
      rw [conjunction?, hfirst] at hv
      rw [conjunction?, h.1 first hfirst]
      cases first with
      | true => exact ih h.2 v hv
      | false => exact hv

theorem disjunction?_mono (h : ∀ e ∈ es, ∀ v ∈ e.value? a, v ∈ e.value? b) :
    ∀ v ∈ disjunction? a es, v ∈ disjunction? b es := by
  induction es with
  | nil => exact fun _ hv => hv
  | cons e es ih =>
    rw [List.forall_mem_cons] at h
    intro v hv
    cases hfirst : e.value? a with
    | none => simp [disjunction?, hfirst] at hv
    | some first =>
      rw [disjunction?, hfirst] at hv
      rw [disjunction?, h.1 first hfirst]
      cases first with
      | true => exact hv
      | false => exact ih h.2 v hv

theorem allValues?_mono (h : ∀ e ∈ es, ∀ v ∈ e.value? a, v ∈ e.value? b) :
    ∀ vs ∈ allValues? a es, vs ∈ allValues? b es := by
  induction es with
  | nil => exact fun _ hvs => hvs
  | cons e es ih =>
    rw [List.forall_mem_cons] at h
    intro vs hvs
    cases hfirst : e.value? a with
    | none => simp [allValues?, hfirst] at hvs
    | some first =>
      rw [allValues?, hfirst] at hvs
      obtain ⟨rest, hrest, rfl⟩ := Option.map_eq_some_iff.1 hvs
      rw [allValues?, h.1 first hfirst, ih h.2 rest hrest]
      rfl

/-! ## Knowing more inputs -/

/-- What is done with values is done with the values found when more is known. -/
theorem mem_map_mono {α β : Type} {f : α → β} {x y : Option α} (h : ∀ v ∈ x, v ∈ y) :
    ∀ v ∈ x.map f, v ∈ y.map f := by
  intro v hv
  obtain ⟨u, hu, rfl⟩ := Option.map_eq_some_iff.1 hv
  exact Option.mem_map_of_mem f (h u hu)

theorem mem_bind_mono {α β : Type} {f : α → Option β} {x y : Option α} (h : ∀ v ∈ x, v ∈ y) :
    ∀ v ∈ x.bind f, v ∈ y.bind f := by
  intro v hv
  obtain ⟨u, hu, hf⟩ := Option.bind_eq_some_iff.1 hv
  exact Option.bind_eq_some_iff.2 ⟨u, h u hu, hf⟩

theorem value?_gate_mono (h : ∀ e ∈ es, ∀ v ∈ e.value? a, v ∈ e.value? b)
    (connective : Connective) :
    ∀ v ∈ (gate connective es).value? a, v ∈ (gate connective es).value? b := by
  cases connective with
  | and => exact conjunction?_mono h
  | or => exact disjunction?_mono h
  | nand => exact mem_map_mono (conjunction?_mono h)
  | nor => exact mem_map_mono (disjunction?_mono h)
  | xor => exact mem_map_mono (allValues?_mono h)
  | xnor => exact mem_map_mono (allValues?_mono h)

/-- **Knowing more inputs.**  An assignment that knows each input of a formula that another one
knows gives the formula the value that the other gives it, if the other gives it one.

The induction follows evaluation: what the first assignment finds of an argument the second finds
too, so both go on with the same arguments. -/
theorem value?_mono (h : ∀ k, Occurs (.input k) e → ∀ v ∈ a[k]?, v ∈ b[k]?) :
    ∀ v ∈ e.value? a, v ∈ e.value? b := by
  induction e with
  | const value => exact fun _ hv => hv
  | input place => exact h place .self
  | not e ih =>
    exact mem_map_mono (ih fun k hk => h k (.argument List.mem_cons_self hk))
  | gate connective es ih =>
    exact value?_gate_mono (fun e he => ih e he fun k hk => h k (.argument he hk)) connective
  | mux s x y ihs ihx ihy =>
    obtain ⟨hks, hkx, hky⟩ := forall_mem_three.1 fun _ he k hk => h k (.argument he hk)
    have hs := ihs hks
    have hx := ihx hkx
    have hy := ihy hky
    intro v hv
    cases hselector : s.value? a with
    | none => simp [value?, hselector] at hv
    | some selector =>
      rw [value?, hselector] at hv
      rw [value?, hs selector hselector]
      cases selector with
      | true => exact hx v hv
      | false => exact hy v hv
  | majority x y z ihx ihy ihz =>
    obtain ⟨hkx, hky, hkz⟩ := forall_mem_three.1 fun _ he k hk => h k (.argument he hk)
    have hx := ihx hkx
    have hy := ihy hky
    have hz := ihz hkz
    intro v hv
    rw [value?] at hv
    split at hv
    · next first second third hfirst hsecond hthird =>
      rw [value?, hx first hfirst, hy second hsecond, hz third hthird]
      exact hv
    · cases hv
  | lookUp mask es ih =>
    exact mem_bind_mono (allValues?_mono fun e he => ih e he fun k hk => h k (.argument he hk))

/-- **Only inputs that occur matter.**  They decide the value of a formula, and whether it has
one. -/
theorem value?_eq_of_occurs (h : ∀ k, Occurs (.input k) e → a[k]? = b[k]?) :
    e.value? a = e.value? b := by
  have hforth : ∀ v ∈ e.value? a, v ∈ e.value? b := value?_mono fun k hk v hv => by rwa [← h k hk]
  have hback : ∀ v ∈ e.value? b, v ∈ e.value? a := value?_mono fun k hk v hv => by rwa [h k hk]
  exact Option.ext fun v => ⟨hforth v, hback v⟩

/-- Number of inputs, from the first on, that reach up to the largest input of a formula. -/
def reach (e : Formula) : Nat := e.largestInput?.elim 0 Nat.succ

theorem lt_reach_of_occurs {k : Nat} (hk : Occurs (.input k) e) : k < e.reach := by
  rw [reach]
  cases hlargest : e.largestInput? with
  | none => exact absurd hk (largestInput?_eq_none_iff.1 hlargest k)
  | some m => exact Nat.lt_succ_of_le ((isGreatest_of_largestInput? hlargest).2 hk)

/-- **Which inputs a formula depends on.**  A formula is accepted if there are more inputs than each
that occurs in it, and its largest input is the greatest of these.  For assignments of any length,
accepted or not: a value is kept when more inputs are known, inputs that do not occur change neither
the value nor whether there is one, and so the inputs up to the largest one decide both.  None of
this depends on the masks of the formula.  That an accepted formula has a value at all is told of
those whose look-up tables have no more arguments than their masks have been made for. -/
theorem value?_relevance (e : Formula) :
    (∀ n, e.accepts n = true ↔ ∀ k, Occurs (.input k) e → k < n) ∧
    (∀ m, e.largestInput? = some m ↔ IsGreatest {k | Occurs (.input k) e} m) ∧
    (e.largestInput? = none ↔ ∀ k, ¬ Occurs (.input k) e) ∧
    (∀ (a more : Assignment) v, e.value? a = some v → e.value? (a ++ more) = some v) ∧
    (∀ a b : Assignment, (∀ k, Occurs (.input k) e → a[k]? = b[k]?) → e.value? a = e.value? b) ∧
    (∀ a b : Assignment, a.take e.reach = b.take e.reach → e.value? a = e.value? b) ∧
    ∀ a : Assignment, e.MasksCover → e.accepts a.length = true → ∃ v, e.value? a = some v := by
  refine ⟨fun n => accepts_iff_forall_occurs, fun m => largestInput?_eq_some_iff,
    largestInput?_eq_none_iff, ?_, fun a b => value?_eq_of_occurs, ?_, ?_⟩
  · intro a more v hv
    refine value?_mono (fun k _ u hu => ?_) v hv
    obtain ⟨hlt, -⟩ := List.getElem?_eq_some_iff.1 hu
    rwa [List.getElem?_append_left hlt]
  · intro a b hab
    refine value?_eq_of_occurs fun k hk => ?_
    have hlt := lt_reach_of_occurs hk
    rw [← List.getElem?_take_of_lt hlt, hab, List.getElem?_take_of_lt hlt]
  · exact fun a hmasks ha => Option.isSome_iff_exists.1 (isSome_value?_of_accepts hmasks ha)

/-- A disjunction that may stop before it asks for its last input. -/
def early : Formula := .gate .or [.input 0, .input 2]

/-- With one input it is not accepted.  If that input is true it has a value whatever follows, and
otherwise it has none, whatever the input is that does not occur in it.  With three inputs it has a
value whatever they are. -/
theorem value?_relevance_early :
    early.accepts 1 = false ∧ (∀ more : Assignment, early.value? ([true] ++ more) = some true) ∧
      (∀ v, early.value? [false, v] = none) ∧ (∀ v, early.value? [false, v, true] = some true) ∧
      ∀ x y z, ∃ v, early.value? [x, y, z] = some v := by
  obtain ⟨-, -, -, hmore, hoccurs, -, hvalue⟩ := value?_relevance early
  have hmasks : early.MasksCover := masksCover_of_masksFit rfl
  have hplaces : ∀ k, Occurs (.input k) early → k = 0 ∨ k = 2 := by
    intro k hk
    rw [early] at hk
    cases hk with
    | argument hx hk =>
      simp only [arguments, List.mem_cons, List.not_mem_nil, or_false] at hx
      rcases hx with rfl | rfl <;> cases hk with
      | self => simp
      | argument hx => cases hx
  have hagree (v : Bool) (rest : Assignment) :
      early.value? (false :: v :: rest) = early.value? (false :: false :: rest) := by
    refine hoccurs _ _ fun k hk => ?_
    rcases hplaces k hk with rfl | rfl <;> rfl
  exact ⟨rfl, fun more => hmore [true] more true rfl, fun v => hagree v [],
    fun v => hagree v [true], fun x y z => hvalue [x, y, z] hmasks rfl⟩

end VoxelLogic.Formula
