import VoxelLogic.Circuit.Basic

/-!
# The full adder

A full adder on the top, bottom and left of a module: the sum leaves at the front and the carry at
the back.
-/

namespace VoxelLogic.Circuit

/-- The full adder of three inputs. -/
def fullAdder : Circuit where
  inputs := [.ofPower (.site .middle .top .middle), .ofPower (.site .middle .down .middle),
    .ofPower (.site .middle .middle .left)]
  outputs :=
    [⟨.site .front .middle .middle, .power,
        .formula (.gate .xor [.input 0, .input 1, .input 2]), rfl⟩,
      ⟨.site .back .middle .middle, .power,
        .formula (.majority (.input 0) (.input 1) (.input 2)), rfl⟩]
  inputs_nodup := by decide
  outputs_nodup := by decide

end VoxelLogic.Circuit
