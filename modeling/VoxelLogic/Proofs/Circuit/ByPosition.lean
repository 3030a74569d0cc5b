import VoxelLogic.Circuit.Basic
import VoxelLogic.Proofs.Success

/-!
# Circuits by position

A circuit lists its pins in some order, and an assignment follows that order.  What a circuit does
as a module does not depend on the order: it gives each output position a value that depends on the
values of the input positions.  This module states it in that form.

* `Circuit.inputAt?`, `Circuit.outputAt?`: the value of an input or an output, found by position.
* `Circuit.assignmentOf`: the assignment in which every input has the value of its position.
* `Circuit.valueAt?`: the value of an output position when the positions have given values.
* `Circuit.inputCodes`, `Circuit.outputCodes`: the positions of the pins with their type codes.
* `Circuit.IsTotal`: every output has a value at every assignment of the inputs.
-/

namespace VoxelLogic

/-- Applying a function to all members of a list succeeds with the values that it has there. -/
theorem mapM_eq_some_iff {α β : Type} {f : α → Option β} {xs : List α} {ys : List β} :
    xs.mapM f = some ys ↔ xs.map f = ys.map some := by
  induction xs generalizing ys with
  | nil => cases ys <;> simp
  | cons x xs ih =>
    rw [List.mapM_cons]
    cases ys with
    | nil => simp [Option.bind_eq_some_iff]
    | cons y ys => simp [← ih, Option.bind_eq_some_iff]

namespace Circuit

/-! ## Pins by position -/

/-- The positions of the inputs with their type codes. -/
def inputCodes (c : Circuit) : List (Position × UInt8) :=
  c.inputs.map fun pin => (pin.position, pin.type.code)

/-- The positions of the outputs with their type codes. -/
def outputCodes (c : Circuit) : List (Position × UInt8) :=
  c.outputs.map fun pin => (pin.position, pin.type.code)

theorem map_fst_inputCodes (c : Circuit) : c.inputCodes.map Prod.fst = c.inputPositions := by
  simp [inputCodes, inputPositions]

theorem map_fst_outputCodes (c : Circuit) : c.outputCodes.map Prod.fst = c.outputPositions := by
  simp [outputCodes, outputPositions]

@[simp] theorem length_inputPositions (c : Circuit) :
    c.inputPositions.length = c.inputs.length :=
  List.length_map _

@[simp] theorem length_outputPositions (c : Circuit) :
    c.outputPositions.length = c.outputs.length :=
  List.length_map _

/-! ## Values by position -/

/-- The value that an assignment gives to the input at a position. -/
def inputAt? (c : Circuit) (a : Assignment) (p : Position) : Option Bool :=
  (c.inputPositions.idxOf? p).bind fun place => a[place]?

/-- The value of the output at a position. -/
def outputAt? (c : Circuit) (a : Assignment) (p : Position) : Option Bool :=
  (c.outputs.find? fun pin => pin.position == p).bind fun pin => pin.value? a

/-- The assignment in which every input has the value of its position. -/
def assignmentOf (c : Circuit) (v : Position → Bool) : Assignment := c.inputPositions.map v

/-- The value of the output at a position when every input has the value of its position. -/
def valueAt? (c : Circuit) (v : Position → Bool) (p : Position) : Option Bool :=
  c.outputAt? (c.assignmentOf v) p

/-- Every output has a value at every assignment of the inputs. -/
def IsTotal (c : Circuit) : Prop :=
  ∀ a : Assignment, a.length = c.inputs.length → ∀ pin ∈ c.outputs, (pin.value? a).isSome

@[simp] theorem length_assignmentOf (c : Circuit) (v : Position → Bool) :
    (c.assignmentOf v).length = c.inputs.length := by
  rw [assignmentOf, List.length_map, length_inputPositions]

/-- An input has the value of its position. -/
theorem inputAt?_assignmentOf {c : Circuit} {v : Position → Bool} {p : Position}
    (h : p ∈ c.inputPositions) : c.inputAt? (c.assignmentOf v) p = some (v p) := by
  cases hi : c.inputPositions.idxOf? p with
  | none => exact absurd h (List.idxOf?_eq_none_iff.1 hi)
  | some i =>
    obtain ⟨hlt, hget, -⟩ := List.idxOf?_eq_some_iff.1 hi
    rw [inputAt?, hi, Option.bind_some, assignmentOf, List.getElem?_map,
      List.getElem?_eq_getElem hlt, hget, Option.map_some]

/-- An assignment gives the input at a place its value at that place. -/
theorem inputAt?_getElem (c : Circuit) (a : Assignment) {i : Nat}
    (h : i < c.inputPositions.length) : c.inputAt? a c.inputPositions[i] = a[i]? := by
  have hidx : c.inputPositions.idxOf? c.inputPositions[i] = some i := by
    refine List.idxOf?_eq_some_iff.2 ⟨h, rfl, fun j hj heq => ?_⟩
    have hji : j = i := (List.getElem_inj c.inputs_nodup).1 heq
    omega
  rw [inputAt?, hidx, Option.bind_some]

/-- An assignment is told by the values that it gives to the positions. -/
theorem eq_assignmentOf {c : Circuit} {a : Assignment} {v : Position → Bool}
    (hlen : a.length = c.inputs.length)
    (h : ∀ p ∈ c.inputPositions, c.inputAt? a p = some (v p)) : a = c.assignmentOf v := by
  apply List.ext_getElem
  · rw [hlen, length_assignmentOf]
  · intro i h₁ h₂
    have hi : i < c.inputPositions.length := by simpa using h₂
    have hval := h _ (List.getElem_mem hi)
    rw [inputAt?_getElem c a hi, List.getElem?_eq_getElem h₁] at hval
    simpa [assignmentOf] using Option.some.inj hval

/-- Every assignment of the inputs comes from values of the positions. -/
theorem exists_assignmentOf {c : Circuit} {a : Assignment} (hlen : a.length = c.inputs.length) :
    ∃ v, a = c.assignmentOf v := by
  refine ⟨fun p => (c.inputAt? a p).getD false, eq_assignmentOf hlen fun p hp => ?_⟩
  obtain ⟨i, hi, rfl⟩ := List.getElem_of_mem hp
  have hai : i < a.length := by
    rw [hlen]
    simpa using hi
  rw [inputAt?_getElem c a hi, List.getElem?_eq_getElem hai, Option.getD_some]

/-- The output at a place is found by its position. -/
theorem find?_position {outputs : List OutputPin} (h : (outputs.map OutputPin.position).Nodup)
    {pin : OutputPin} (hpin : pin ∈ outputs) :
    outputs.find? (fun o => o.position == pin.position) = some pin := by
  induction outputs with
  | nil => cases hpin
  | cons o rest ih =>
    rw [List.map_cons, List.nodup_cons] at h
    rcases List.mem_cons.1 hpin with rfl | hrest
    · rw [List.find?_cons_of_pos (by simp)]
    · have hne : o.position ≠ pin.position := fun heq =>
        h.1 (heq ▸ List.mem_map_of_mem hrest)
      rw [List.find?_cons_of_neg (by simpa using hne), ih h.2 hrest]

theorem outputAt?_of_mem {c : Circuit} {pin : OutputPin} (h : pin ∈ c.outputs) (a : Assignment) :
    c.outputAt? a pin.position = pin.value? a := by
  rw [outputAt?, find?_position c.outputs_nodup h, Option.bind_some]

/-- A position without an output has no value. -/
theorem outputAt?_eq_none {c : Circuit} {p : Position} (h : p ∉ c.outputPositions)
    (a : Assignment) : c.outputAt? a p = none := by
  have hnone : c.outputs.find? (fun o => o.position == p) = none := by
    rw [List.find?_eq_none]
    intro o ho heq
    exact h (List.mem_map.2 ⟨o, ho, by simpa using heq⟩)
  rw [outputAt?, hnone, Option.bind_none]

/-! ## All outputs together -/

theorem values?_eq_some_iff {c : Circuit} {a : Assignment} {vs : List Bool} :
    c.values? a = some vs ↔
      a.length = c.inputs.length ∧ c.outputs.map (·.value? a) = vs.map some := by
  rw [values?]
  split
  · next h => simp [h, mapM_eq_some_iff]
  · next h => simp [h]

/-- The values of the outputs, found by position. -/
theorem map_outputAt? (c : Circuit) (a : Assignment) :
    c.outputPositions.map (c.outputAt? a) = c.outputs.map (·.value? a) := by
  rw [outputPositions, List.map_map]
  exact List.map_congr_left fun pin hpin => outputAt?_of_mem hpin a

/-- A total circuit has values at every assignment of its inputs. -/
theorem IsTotal.exists_values {c : Circuit} (hc : c.IsTotal) {a : Assignment}
    (hlen : a.length = c.inputs.length) : ∃ vs, c.values? a = some vs := by
  refine ⟨c.outputs.map fun pin => (pin.value? a).getD false, values?_eq_some_iff.2 ⟨hlen, ?_⟩⟩
  rw [List.map_map]
  refine List.map_congr_left fun pin hpin => ?_
  obtain ⟨b, hb⟩ := Option.isSome_iff_exists.1 (hc a hlen pin hpin)
  rw [Function.comp_apply, hb, Option.getD_some]

end Circuit

end VoxelLogic
