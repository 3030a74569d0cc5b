/-!
# Readings

A reader takes something off the front of a list.  What it returns is the value it has read and the
part of the list that it has left, which is shorter than the list; a reader that calls itself on
what is left therefore ends.
-/

namespace VoxelLogic.Text

/-- A value that was read from the front of a list, with what is left of the list. -/
structure Reading (α : Type) {τ : Type} (source : List τ) where
  value : α
  rest : List τ
  shorter : rest.length < source.length

/-- A value that was read from the front of a list, with what is left of the list, which may be all
of it. -/
structure OptionalReading (α : Type) {τ : Type} (source : List τ) where
  value : α
  rest : List τ
  length_le : rest.length ≤ source.length

namespace Reading

variable {α β τ : Type}

/-- Reading one item. -/
def ofHead (value : α) (item : τ) (rest : List τ) : Reading α (item :: rest) :=
  ⟨value, rest, Nat.lt_succ_self rest.length⟩

/-- A reading of a tail is a reading of the list. -/
def afterHead (item : τ) {source : List τ} (r : Reading α source) : Reading α (item :: source) :=
  ⟨r.value, r.rest, Nat.lt_succ_of_lt r.shorter⟩

/-- A reading of what another reading left is a reading of the whole. -/
def after {source : List τ} (first : Reading α source) (second : Reading β first.rest) :
    Reading β source :=
  ⟨second.value, second.rest, Nat.lt_trans second.shorter first.shorter⟩

/-- The same reading with its value changed. -/
def map (f : α → β) {source : List τ} (r : Reading α source) : Reading β source :=
  ⟨f r.value, r.rest, r.shorter⟩

@[simp] theorem ofHead_value (value : α) (item : τ) (rest : List τ) :
    (ofHead value item rest).value = value := rfl

@[simp] theorem ofHead_rest (value : α) (item : τ) (rest : List τ) :
    (ofHead value item rest).rest = rest := rfl

@[simp] theorem afterHead_value (item : τ) {source : List τ} (r : Reading α source) :
    (r.afterHead item).value = r.value := rfl

@[simp] theorem afterHead_rest (item : τ) {source : List τ} (r : Reading α source) :
    (r.afterHead item).rest = r.rest := rfl

@[simp] theorem after_value {source : List τ} (first : Reading α source)
    (second : Reading β first.rest) : (first.after second).value = second.value := rfl

@[simp] theorem after_rest {source : List τ} (first : Reading α source)
    (second : Reading β first.rest) : (first.after second).rest = second.rest := rfl

@[simp] theorem map_value (f : α → β) {source : List τ} (r : Reading α source) :
    (r.map f).value = f r.value := rfl

@[simp] theorem map_rest (f : α → β) {source : List τ} (r : Reading α source) :
    (r.map f).rest = r.rest := rfl

end Reading

end VoxelLogic.Text
