import VoxelLogic.Error

/-!
# Circuits

A circuit is a list of inputs and a list of outputs.  Within each list every position occurs once;
the same position may carry an input and an output.  `Circuit` holds proofs of both, so the lists
can only be set through `Circuit.withInputs` and `Circuit.withOutputs`, which refuse a list that
repeats a position and leave the circuit as it was.

* `firstRepeat?`: the first position of a list that stands earlier in it
  (`firstRepeat?_eq_none_iff`).
* `InputPin.make`, `OutputPin.make`: pins from parts that may not go together.
* `Circuit.check`: whether every output can be used with the inputs of the circuit.
* `Circuit.values?`: the values of all outputs at an assignment.
-/

namespace VoxelLogic

/-! ## Making pins -/

/-- An input at a position, unless the position does not take the type. -/
def InputPin.make (position : Position) (type : PinType) : Except Error InputPin :=
  if takes : position.takes type = true then .ok ⟨position, type, takes⟩
  else .error (.stateType position type)

/-- An output at a position, unless the position does not take the type. -/
def OutputPin.make (position : Position) (type : PinType) (behaviour : Behaviour) :
    Except Error OutputPin :=
  if takes : position.takes type = true then .ok ⟨position, type, behaviour, takes⟩
  else .error (.stateType position type)

/-- Reads a position. -/
def Position.read (token : String) : Except Error Position :=
  match Position.ofToken? token with
  | none => .error (.unknownPosition token)
  | some position => .ok position

/-! ## Repeated positions -/

/-- The first position that occurs in `seen` or earlier in the list, with its place counted on from
the length of `seen`. -/
def firstRepeatAfter? (seen : List Position) : List Position → Option (Position × Nat)
  | [] => none
  | p :: ps => if p ∈ seen then some (p, seen.length) else firstRepeatAfter? (p :: seen) ps

/-- The first position of a list that occurs earlier in it, with its place. -/
def firstRepeat? (positions : List Position) : Option (Position × Nat) :=
  firstRepeatAfter? [] positions

theorem firstRepeatAfter?_eq_none_iff {seen ps : List Position} :
    firstRepeatAfter? seen ps = none ↔ ps.Nodup ∧ ∀ p ∈ ps, p ∉ seen := by
  induction ps generalizing seen with
  | nil => simp [firstRepeatAfter?]
  | cons p ps ih =>
    by_cases hp : p ∈ seen
    · simp [firstRepeatAfter?, hp]
    · simp only [firstRepeatAfter?, hp, if_false, ih, List.nodup_cons, List.mem_cons, not_or]
      constructor
      · rintro ⟨hps, hseen⟩
        refine ⟨⟨fun hmem => (hseen p hmem).1 rfl, hps⟩, ?_⟩
        rintro q (rfl | hq)
        · exact hp
        · exact (hseen q hq).2
      · rintro ⟨⟨hmem, hps⟩, hseen⟩
        exact ⟨hps, fun q hq => ⟨fun heq => hmem (heq ▸ hq), hseen q (Or.inr hq)⟩⟩

/-- A list has no repeat if and only if its positions are distinct. -/
theorem firstRepeat?_eq_none_iff {ps : List Position} :
    firstRepeat? ps = none ↔ ps.Nodup := by
  rw [firstRepeat?, firstRepeatAfter?_eq_none_iff]
  exact ⟨fun h => h.1, fun h => ⟨h, fun _ _ hmem => nomatch hmem⟩⟩

/-! ## Circuits -/

/-- A circuit: its pins in the order in which they were declared. -/
structure Circuit where
  inputs : List InputPin
  outputs : List OutputPin
  inputs_nodup : (inputs.map InputPin.position).Nodup
  outputs_nodup : (outputs.map OutputPin.position).Nodup

namespace Circuit

/-- The circuit without pins. -/
def empty : Circuit := ⟨[], [], List.nodup_nil, List.nodup_nil⟩

/-- Replaces the inputs, unless the new ones repeat a position. -/
def withInputs (c : Circuit) (inputs : List InputPin) : Except Error Circuit :=
  match h : firstRepeat? (inputs.map InputPin.position) with
  | some (position, place) => .error (.repeatedPosition position place)
  | none => .ok { c with inputs, inputs_nodup := firstRepeat?_eq_none_iff.1 h }

/-- Replaces the outputs, unless the new ones repeat a position. -/
def withOutputs (c : Circuit) (outputs : List OutputPin) : Except Error Circuit :=
  match h : firstRepeat? (outputs.map OutputPin.position) with
  | some (position, place) => .error (.repeatedPosition position place)
  | none => .ok { c with outputs, outputs_nodup := firstRepeat?_eq_none_iff.1 h }

/-- The circuit with some inputs and some outputs.  Repeated inputs are found before repeated
outputs. -/
def ofPins (inputs : List InputPin) (outputs : List OutputPin) : Except Error Circuit :=
  (empty.withInputs inputs).bind fun c => c.withOutputs outputs

/-- The positions of the inputs. -/
def inputPositions (c : Circuit) : List Position := c.inputs.map InputPin.position

/-- The positions of the outputs. -/
def outputPositions (c : Circuit) : List Position := c.outputs.map OutputPin.position

/-- Number of rows of the truth table. -/
def rowCount (c : Circuit) : Nat := Assignment.count c.inputs.length

/-- Finds the first output that cannot be used with the inputs of the circuit. -/
def check (c : Circuit) : Except Error Unit :=
  match c.outputs.find? fun o => !o.accepts c.inputs.length with
  | none => .ok ()
  | some o => .error (.inputCount o.position c.inputs.length)

/-- The values of the outputs at an assignment.  There are none if the assignment does not give a
value to each input, or if some output has none. -/
def values? (c : Circuit) (a : Assignment) : Option (List Bool) :=
  if a.length = c.inputs.length then c.outputs.mapM (·.value? a) else none

end Circuit

end VoxelLogic
