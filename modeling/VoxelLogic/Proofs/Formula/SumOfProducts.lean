import VoxelLogic.Formula.SumOfProducts
import VoxelLogic.Proofs.Assignment
import VoxelLogic.Proofs.Circuit.ByPosition
import VoxelLogic.Proofs.Formula.Readable

/-!
# What a sum of products computes

The sum of products of a function has the value of the function at every assignment, and it is a
formula that can be read back.

* `value?_literal`, `value?_minterm`, `value?_sum`: the values of the parts.
* `trueAssignments?_eq`: the assignments at which the function is true.
* `masksFit_of_sumOfProducts?`, `isReadable_of_sumOfProducts?`: the form of the sum.
* `exists_sumOfProducts`, `value?_of_sumOfProducts?`: the sum exists and has the right values.
-/

namespace VoxelLogic.Formula

variable {α : Type} {a b : Assignment} {xs : List α} {g : α → Formula} {p : α → Bool}

/-! ## Values -/

theorem conjunction?_eq_all (h : ∀ x ∈ xs, (g x).value? b = some (p x)) :
    conjunction? b (xs.map g) = some (xs.all p) := by
  induction xs with
  | nil => rfl
  | cons x xs ih =>
    have hx := h x List.mem_cons_self
    have hrest := ih fun y hy => h y (List.mem_cons_of_mem x hy)
    rw [List.map_cons, List.all_cons, conjunction?, hx]
    cases p x with
    | true => exact hrest
    | false => rfl

theorem disjunction?_eq_any (h : ∀ x ∈ xs, (g x).value? b = some (p x)) :
    disjunction? b (xs.map g) = some (xs.any p) := by
  induction xs with
  | nil => rfl
  | cons x xs ih =>
    have hx := h x List.mem_cons_self
    have hrest := ih fun y hy => h y (List.mem_cons_of_mem x hy)
    rw [List.map_cons, List.any_cons, disjunction?, hx]
    cases p x with
    | true => rfl
    | false => exact hrest

/-- A literal is true where the input has the value. -/
theorem value?_literal {place : Nat} {v : Bool} (h : b[place]? = some v) (value : Bool) :
    (literal place value).value? b = some (v == value) := by
  cases value <;> cases v <;> simp [literal, value?, h]

/-- A product is true at its assignment only. -/
theorem value?_minterm (h : b.length = a.length) : (minterm a).value? b = some (b == a) := by
  cases a with
  | nil =>
    rw [List.length_eq_zero_iff.1 h]
    rfl
  | cons first rest =>
    have hliterals : ∀ x ∈ (first :: rest).zipIdx,
        (literal x.2 x.1).value? b = some (b[x.2]?.getD false == x.1) := by
      rintro ⟨v, place⟩ hmem
      have hlt : place < b.length := by
        rw [h]
        exact (List.getElem?_eq_some_iff.1 (List.mk_mem_zipIdx_iff_getElem?.1 hmem)).1
      rw [value?_literal (List.getElem?_eq_getElem hlt), List.getElem?_eq_getElem hlt,
        Option.getD_some]
    have hall : (first :: rest).zipIdx.all (fun x => b[x.2]?.getD false == x.1) =
        (b == first :: rest) := by
      rw [Bool.eq_iff_iff, List.all_eq_true, beq_iff_eq]
      constructor
      · intro heq
        refine List.ext_getElem h fun i h₁ h₂ => ?_
        have hi := heq ((first :: rest)[i], i)
          (List.mk_mem_zipIdx_iff_getElem?.2 (List.getElem?_eq_getElem h₂))
        rwa [List.getElem?_eq_getElem h₁, Option.getD_some, beq_iff_eq] at hi
      · rintro rfl ⟨v, place⟩ hmem
        rw [List.mk_mem_zipIdx_iff_getElem?.1 hmem, Option.getD_some, beq_self_eq_true]
    rw [minterm, value?, List.mapIdx_eq_zipIdx_map, conjunction?_eq_all hliterals, hall]

/-- A sum is true where one of its members is. -/
theorem value?_sum (h : ∀ x ∈ xs, (g x).value? b = some (p x)) :
    (sum (xs.map g)).value? b = some (xs.any p) := by
  match xs with
  | [] => rfl
  | [x] =>
    rw [List.any_cons, List.any_nil, Bool.or_false]
    exact h x List.mem_cons_self
  | x :: y :: rest =>
    rw [← disjunction?_eq_any h]
    rfl

/-! ## Form -/

theorem masksFit_literal (place : Nat) (value : Bool) : (literal place value).masksFit = true := by
  cases value <;> rfl

theorem masksFit_minterm (a : Assignment) : (minterm a).masksFit = true := by
  cases a with
  | nil => rfl
  | cons first rest =>
    refine allMasksFit_iff.2 fun e he => ?_
    obtain ⟨i, hi, rfl⟩ := List.mem_mapIdx.1 he
    exact masksFit_literal _ _

theorem masksFit_sum {es : List Formula} (h : ∀ e ∈ es, e.masksFit = true) :
    (sum es).masksFit = true := by
  match es with
  | [] => rfl
  | [e] => exact h e List.mem_cons_self
  | e :: f :: rest => exact allMasksFit_iff.2 h

theorem isReadable_literal {inputs place : Nat} (h : place < inputs) (value : Bool) :
    (literal place value).isReadable inputs = true := by
  cases value <;> exact decide_eq_true h

theorem isReadable_minterm (a : Assignment) : (minterm a).isReadable a.length = true := by
  cases a with
  | nil => rfl
  | cons first rest =>
    have hliterals :
        allReadable (first :: rest).length ((first :: rest).mapIdx literal) = true := by
      refine allReadable_iff.2 fun e he => ?_
      obtain ⟨i, hi, rfl⟩ := List.mem_mapIdx.1 he
      exact isReadable_literal hi _
    rw [minterm, isReadable, hliterals, List.mapIdx_cons]
    rfl

theorem isReadable_sum {inputs : Nat} {es : List Formula}
    (h : ∀ e ∈ es, e.isReadable inputs = true) : (sum es).isReadable inputs = true := by
  match es with
  | [] => rfl
  | [e] => exact h e List.mem_cons_self
  | e :: f :: rest => exact Bool.and_eq_true_iff.2 ⟨rfl, allReadable_iff.2 h⟩

/-! ## Sums of products -/

variable {inputs : Nat} {f : Assignment → Option Bool} {e : Formula}

/-- A function has a sum of products if it has a value at every assignment. -/
theorem trueAssignments?_eq (h : ∀ a : Assignment, a.length = inputs → (f a).isSome = true) :
    trueAssignments? inputs f =
      some ((Assignment.all inputs).filter fun a => (f a).getD false) := by
  have hvalues : (Assignment.all inputs).mapM (fun a => (f a).map (Prod.mk a)) =
      some ((Assignment.all inputs).map fun a => (a, (f a).getD false)) := by
    rw [mapM_eq_some_iff, List.map_map]
    refine List.map_congr_left fun a ha => ?_
    obtain ⟨v, hv⟩ := Option.isSome_iff_exists.1 (h a (Assignment.mem_all_iff.1 ha))
    rw [Function.comp_apply, hv, Option.map_some, Option.getD_some]
  rw [trueAssignments?, Assignment.tabulate?_eq_mapM, hvalues, Option.map_some, List.filter_map,
    List.map_map]
  simp [Function.comp_def]

theorem exists_sumOfProducts
    (h : ∀ a : Assignment, a.length = inputs → (f a).isSome = true) :
    ∃ e, sumOfProducts? inputs f = some e := by
  rw [sumOfProducts?, trueAssignments?_eq h]
  exact ⟨_, rfl⟩

/-- **Sums of products.**  The sum of products of a function that has a value at every assignment
has that value. -/
theorem value?_of_sumOfProducts?
    (h : ∀ a : Assignment, a.length = inputs → (f a).isSome = true)
    (he : sumOfProducts? inputs f = some e) (ha : a.length = inputs) : e.value? a = f a := by
  rw [sumOfProducts?, trueAssignments?_eq h, Option.map_some] at he
  obtain rfl := Option.some.inj he
  obtain ⟨v, hv⟩ := Option.isSome_iff_exists.1 (h a ha)
  have hproducts : ∀ b ∈ (Assignment.all inputs).filter fun b => (f b).getD false,
      (minterm b).value? a = some (a == b) := by
    intro b hb
    refine value?_minterm ?_
    rw [ha, Assignment.mem_all_iff.1 (List.mem_filter.1 hb).1]
  have hany : ((Assignment.all inputs).filter fun b => (f b).getD false).any (fun b => a == b) =
      v := by
    rw [Bool.eq_iff_iff, List.any_eq_true]
    constructor
    · rintro ⟨b, hb, heq⟩
      obtain rfl := eq_of_beq heq
      simpa [hv] using (List.mem_filter.1 hb).2
    · rintro rfl
      exact ⟨a, List.mem_filter.2 ⟨Assignment.mem_all_iff.2 ha, by rw [hv, Option.getD_some]⟩,
        beq_self_eq_true a⟩
  rw [value?_sum hproducts, hany, hv]

theorem mem_trueAssignments? {trues : List Assignment} (h : trueAssignments? inputs f = some trues)
    (ha : a ∈ trues) : a.length = inputs := by
  obtain ⟨values, hvalues, rfl⟩ := Option.map_eq_some_iff.1 h
  rw [Assignment.tabulate?_eq_mapM, mapM_eq_some_iff] at hvalues
  obtain ⟨entry, hentry, rfl⟩ := List.mem_map.1 ha
  have hmem : some entry ∈ (Assignment.all inputs).map fun a => (f a).map (Prod.mk a) := by
    rw [hvalues]
    exact List.mem_map_of_mem (List.mem_filter.1 hentry).1
  obtain ⟨b, hb, heq⟩ := List.mem_map.1 hmem
  obtain ⟨v, -, rfl⟩ := Option.map_eq_some_iff.1 heq
  exact Assignment.mem_all_iff.1 hb

theorem masksFit_of_sumOfProducts? (h : sumOfProducts? inputs f = some e) : e.masksFit = true := by
  obtain ⟨trues, -, rfl⟩ := Option.map_eq_some_iff.1 h
  refine masksFit_sum fun product hproduct => ?_
  obtain ⟨a, -, rfl⟩ := List.mem_map.1 hproduct
  exact masksFit_minterm a

/-- A sum of products can be read over the inputs of its function. -/
theorem isReadable_of_sumOfProducts? (h : sumOfProducts? inputs f = some e) :
    e.isReadable inputs = true := by
  obtain ⟨trues, htrues, rfl⟩ := Option.map_eq_some_iff.1 h
  refine isReadable_sum fun product hproduct => ?_
  obtain ⟨a, ha, rfl⟩ := List.mem_map.1 hproduct
  rw [← mem_trueAssignments? htrues ha]
  exact isReadable_minterm a

end VoxelLogic.Formula
