import VoxelLogic.Text.Printable

/-!
# Quoted text

A text is quoted for a message by putting it between double quotes.  Quotes and backslashes inside
it, control characters and everything else that is not printed as it stands are written as escapes.
-/

namespace VoxelLogic.Text

/-- The code of a character in lower-case hexadecimal digits. -/
def hexCode (c : Char) : String := String.ofList (Nat.toDigits 16 c.toNat)

/-- A character inside quotes. -/
def quotedChar (c : Char) : String :=
  match c with
  | '\x00' => "\\0"
  | '\t' => "\\t"
  | '\r' => "\\r"
  | '\n' => "\\n"
  | '\\' => "\\\\"
  | '"' => "\\\""
  | c => if isPrintable c then String.singleton c else "\\u\x7b" ++ hexCode c ++ "\x7d"

/-- A text between quotes. -/
def quoted (text : String) : String := "\"" ++ String.join (text.toList.map quotedChar) ++ "\""

end VoxelLogic.Text
