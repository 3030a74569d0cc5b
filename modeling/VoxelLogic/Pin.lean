import VoxelLogic.Formula.Value
import VoxelLogic.PackedRow
import VoxelLogic.Position

/-!
# Pins

A pin sits at a position and carries power or one of the other materials, which are told apart by
codes.  Code 0 always means power, and a pin on a state slot carries nothing else: the types
`InputPin` and `OutputPin` hold a proof of that, so a pin that exists is valid.

An output pin also has a `Behaviour`, its value as a function of the inputs.

* `PinType`: what a pin carries, with its code and its name.
* `Behaviour.value?`: the value of an output at an assignment, if it has one.
* `Behaviour.accepts`: whether a behaviour can be used with a number of inputs.
-/

namespace VoxelLogic

/-! ## What a pin carries -/

/-- What a pin carries. -/
inductive PinType where
  /-- Power. -/
  | power
  /-- The material of a code.  Code 0 counts as power here too. -/
  | other (code : UInt8)
  deriving DecidableEq, Repr

namespace PinType

/-- The type of a code; power for code 0. -/
def ofCode (code : UInt8) : PinType := if code = 0 then power else other code

/-- The code of a type. -/
def code : PinType → UInt8
  | power => 0
  | other code => code

/-- Whether the type counts as power. -/
def isPower (type : PinType) : Bool := type.code == 0

/-- The name of a type: `POWER` or the code. -/
def name : PinType → String
  | power => "POWER"
  | other code => toString code.toNat

@[simp] theorem code_ofCode (code : UInt8) : (ofCode code).code = code := by
  unfold ofCode
  split
  · next h => rw [h]; rfl
  · rfl

/-- A type with code 0 counts as power. -/
@[simp] theorem isPower_iff {type : PinType} : type.isPower = true ↔ type.code = 0 := by
  simp [isPower]

end PinType

/-- A position takes a type if the type counts as power or the position carries no state. -/
def Position.takes (position : Position) (type : PinType) : Bool :=
  !position.isState || type.isPower

/-- Every position takes power. -/
@[simp] theorem Position.takes_power (position : Position) : position.takes .power = true := by
  simp [Position.takes, PinType.isPower, PinType.code]

/-! ## Inputs -/

/-- An input of a module. -/
structure InputPin where
  position : Position
  type : PinType
  takes : position.takes type = true
  deriving DecidableEq

/-- An input of power. -/
def InputPin.ofPower (position : Position) : InputPin := ⟨position, .power, position.takes_power⟩

/-! ## Behaviours -/

/-- How an output depends on the inputs. -/
inductive Behaviour where
  /-- A formula, whatever masks its look-up tables have. -/
  | formula (f : Formula)
  /-- One output of a packed table, whose row is chosen by the assignment. -/
  | lookUp (rows : Array PackedRow) (output : Nat)
  /-- A function of which nothing is known but its values. -/
  | blackBox (value? : Assignment → Option Bool)

namespace Behaviour

/-- The value of a behaviour at an assignment, if it has one there. -/
def value? (behaviour : Behaviour) (a : Assignment) : Option Bool :=
  match behaviour with
  | formula f => f.value? a
  | lookUp rows k => rows[a.index]?.map fun row => PackedRow.output row k
  | blackBox value? => value? a

/-- Whether a behaviour can be used with a number of inputs.  A table takes exactly the inputs that
select its rows, and a black box is trusted with any number. -/
def accepts (behaviour : Behaviour) (inputs : Nat) : Bool :=
  match behaviour with
  | formula f => f.accepts inputs
  | lookUp rows _ => rows.size == Assignment.count inputs
  | blackBox _ => true

/-- The formula of a behaviour that is given by one. -/
def formula? : Behaviour → Option Formula
  | formula f => some f
  | lookUp .. => none
  | blackBox _ => none

end Behaviour

/-! ## Outputs -/

/-- An output of a module. -/
structure OutputPin where
  position : Position
  type : PinType
  behaviour : Behaviour
  takes : position.takes type = true

namespace OutputPin

/-- The value of an output at an assignment, if it has one there. -/
def value? (pin : OutputPin) (a : Assignment) : Option Bool := pin.behaviour.value? a

/-- Whether the output can be used with a number of inputs. -/
def accepts (pin : OutputPin) (inputs : Nat) : Bool := pin.behaviour.accepts inputs

end OutputPin

end VoxelLogic
