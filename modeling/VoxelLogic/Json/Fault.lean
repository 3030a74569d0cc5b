/-!
# What can be wrong with a JSON text

A text is read from left to right, and the first thing that is wrong with it decides.
-/

namespace VoxelLogic.Json

/-- Why a JSON text is refused. -/
inductive Fault where
  /-- The text is not JSON. -/
  | malformed
  /-- The text is JSON so far, but a value is not of the kind or in the range that is asked for. -/
  | mistyped
  /-- The text ends inside a value. -/
  | truncated
  /-- The text cannot be had. -/
  | unreadable
  deriving DecidableEq, Repr

end VoxelLogic.Json
