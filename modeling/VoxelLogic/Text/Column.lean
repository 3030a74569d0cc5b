/-!
# Text in columns

A text is fitted to a column by cutting it to at most a number of characters and then filling it
with spaces up to a width.  Text that is wider than its column is not cut by the filling.

* `pad`: filling, for columns whose width is known (`length_pad`).
* `fit?`: cutting and filling, for columns whose width is asked for and may be too large.
-/

namespace VoxelLogic.Text

/-- Where a text stands in a column that is wider than it. -/
inductive Alignment where
  | left
  | center
  | right
  deriving DecidableEq, Repr

/-- Fills a text with spaces up to a width.  In the centre, the odd space goes to the right. -/
def pad (alignment : Alignment) (width : Nat) (text : String) : String :=
  let missing := width - text.length
  let before := match alignment with
    | .left => 0
    | .center => missing / 2
    | .right => missing
  String.ofList (List.replicate before ' ') ++ text ++
    String.ofList (List.replicate (missing - before) ' ')

/-- The largest number of characters that a column can be given. -/
def largestWidth : Nat := 65535

/-- Cuts a text to a number of characters if one is given, then fills it to a width, unless one of
the two numbers is too large for a column. -/
def fit? (limit : Option Nat) (alignment : Alignment) (width : Nat) (text : String) :
    Option String :=
  if width ≤ largestWidth ∧ limit.all (· ≤ largestWidth) then
    match limit with
    | none => some (pad alignment width text)
    | some n => some (pad alignment width (String.ofList (text.toList.take n)))
  else none

/-- A filled text is as wide as its column or, if that is more, as itself. -/
theorem length_pad (alignment : Alignment) (width : Nat) (text : String) :
    (pad alignment width text).length = max width text.length := by
  cases alignment <;> simp [pad] <;> omega

end VoxelLogic.Text
