import VoxelLogic.PinFile.Fault
import VoxelLogic.Pin
import VoxelLogic.Text.Capitals

/-!
# Statements of a pin file

A line that is not blank and not a comment declares one pin:

    INPUT ( position )                  OUTPUT ( position ) = expression
    INPUT ( position , type )           OUTPUT ( position , type ) = expression

Only the form of a line is looked at here.  Its position, its type and its expression are tokens
whose meaning is found once all lines have been read, because an output may be declared before the
inputs it reads.
-/

namespace VoxelLogic.PinFile

open Text

/-- A pin as it is declared. -/
structure Declaration where
  position : Token
  type : Option Token
  deriving DecidableEq, Repr

/-- What a line declares. -/
inductive Statement where
  | input (pin : Declaration)
  | output (pin : Declaration) (expression : List Token)
  deriving DecidableEq, Repr

/-- Reads the keyword that starts a declaration, in any letter case. -/
def Direction.ofText? (text : String) : Option Direction :=
  match capitals text with
  | "INPUT" => some .input
  | "OUTPUT" => some .output
  | _ => none

/-- What stands between the keyword of a declaration and its closing bracket. -/
def Declaration.ofTokens? : List Token → Option Declaration
  | [.leftParen, position] => some ⟨position, none⟩
  | [.leftParen, position, .comma, type] => some ⟨position, some type⟩
  | _ => none

namespace Statement

/-- The statement that follows a keyword. -/
def afterKeyword (direction : Direction) (tokens : List Token) : Except LineFault Statement :=
  match tokens.dropWhile (· != .rightParen) with
  | [] => .error .unclosed
  | _ :: rest =>
    match Declaration.ofTokens? (tokens.takeWhile (· != .rightParen)) with
    | none => .error (.malformed direction)
    | some pin =>
      match direction, rest with
      | .input, [] => .ok (.input pin)
      | .input, _ :: _ => .error .inputLeftover
      | .output, .equals :: token :: expression => .ok (.output pin (token :: expression))
      | .output, _ => .error .expressionExpected

/-- The statement of a line, if its tokens make one.  A line without tokens makes none. -/
def ofTokens : List Token → Except LineFault (Option Statement)
  | [] => .ok none
  | keyword :: tokens =>
    match Direction.ofText? keyword.text with
    | none => .error (.unknownKeyword keyword)
    | some direction => (afterKeyword direction tokens).map some

/-- The statement of a line, if it is neither blank nor a comment.  A comment starts with `#`. -/
def ofLine (line : List Char) : Except LineFault (Option Statement) :=
  match line.dropWhile isBlank with
  | '#' :: _ => .ok none
  | rest =>
    match Token.scan rest with
    | .error found => .error (.unexpectedCharacter found)
    | .ok tokens => ofTokens tokens

end Statement

/-- Reads the type of a pin: power if none is given, or else `POWER` in any letter case, or a
decimal code of at most 255. -/
def pinType : Option Token → Except LineFault PinType
  | none => .ok .power
  | some token =>
    if capitals token.text = "POWER" then .ok .power
    else
      match ofDecimal? token.text.toList with
      | none => .error (.unknownType token)
      | some code =>
        if code < 256 then .ok (.ofCode (UInt8.ofNat code)) else .error (.unknownType token)

end VoxelLogic.PinFile
