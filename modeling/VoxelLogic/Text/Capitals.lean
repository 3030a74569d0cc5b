/-!
# Capitals

Keywords are read in any letter case.  They are compared after their ASCII letters have been turned
into capitals.
-/

namespace VoxelLogic.Text

/-- A text with its ASCII letters turned into capitals. -/
def capitals (text : String) : String := String.ofList (text.toList.map Char.toUpper)

end VoxelLogic.Text
