import VoxelLogic.PinFile.Token

/-!
# What can be wrong with a line of a pin file

Each way in which a line can be refused is a cause of its own; `LineFault.message` words it.
-/

namespace VoxelLogic.PinFile

/-- The gates that take a fixed number of arguments. -/
inductive FixedGate where
  | not
  | buffer
  | mux
  | majority
  deriving DecidableEq, Repr

namespace FixedGate

/-- The name of a gate in messages. -/
def name : FixedGate → String
  | not => "NOT"
  | buffer => "BUF"
  | mux => "MUX"
  | majority => "MAJ"

/-- Number of arguments of a gate. -/
def arity : FixedGate → Nat
  | not => 1
  | buffer => 1
  | mux => 3
  | majority => 3

end FixedGate

/-- Why the expression of an output is refused. -/
inductive ExpressionFault where
  /-- The line ends inside the expression. -/
  | ended
  /-- A gate is not followed by an opening bracket. -/
  | argumentsExpected (found : Token)
  /-- An argument is followed by neither a comma nor a closing bracket. -/
  | separatorExpected (found : Token)
  /-- A gate has the wrong number of arguments. -/
  | arity (gate : FixedGate) (found : Nat)
  /-- A mask does not start with `0x`. -/
  | maskMarkExpected (found : Token)
  /-- A mask is not made of as many hexadecimal digits as its arguments call for. -/
  | badMask (digits : String)
  /-- A mask for so many arguments cannot be stored. -/
  | maskTooLarge (arguments : Nat)
  /-- A token is neither a gate nor a position. -/
  | unknownOperand (found : Token)
  /-- A position is not among the inputs. -/
  | notAnInput (found : Token)
  /-- Tokens follow a complete expression. -/
  | leftover
  deriving DecidableEq, Repr

/-- The wording of a refused expression. -/
def ExpressionFault.message : ExpressionFault → String
  | ended => "Unexpected end of expression"
  | argumentsExpected found => s!"Expected '(', got '{found.text}'"
  | separatorExpected found => s!"Expected ',' or ')', got '{found.text}'"
  | arity gate found => s!"{gate.name} takes {gate.arity} arguments, got {found}"
  | maskMarkExpected found => s!"Expected 0x prefix, got {found.text}"
  | badMask digits => s!"Invalid LUT 0x{digits}"
  | maskTooLarge arguments => s!"No LUT takes {arguments} arguments"
  | unknownOperand found => s!"Unknown gate or input {found.text}"
  | notAnInput found => s!"{found.text} is not an input"
  | leftover => "Unexpected tokens after expression"

/-- What a line declares. -/
inductive Direction where
  | input
  | output
  deriving DecidableEq, Repr

namespace Direction

/-- The keyword that starts a declaration. -/
def keyword : Direction → String
  | input => "INPUT"
  | output => "OUTPUT"

end Direction

/-- Why a line of a pin file is refused. -/
inductive LineFault where
  /-- A character that belongs to no token. -/
  | unexpectedCharacter (found : Char)
  /-- A first token that starts no declaration. -/
  | unknownKeyword (found : Token)
  /-- A declaration without a closing bracket. -/
  | unclosed
  /-- Brackets that hold neither a position nor a position and a type. -/
  | malformed (direction : Direction)
  /-- An input declaration that goes on after its bracket. -/
  | inputLeftover
  /-- An output declaration without an equals sign and an expression. -/
  | expressionExpected
  /-- A type that is neither `POWER` nor a code. -/
  | unknownType (found : Token)
  /-- An expression that is refused. -/
  | expression (fault : ExpressionFault)
  deriving DecidableEq, Repr

/-- The wording of a refused line. -/
def LineFault.message : LineFault → String
  | unexpectedCharacter found => s!"Unexpected character '{found}'"
  | unknownKeyword found => s!"Unknown keyword {found.text}"
  | unclosed => "Missing ')'"
  | malformed direction => s!"Malformed {direction.keyword} declaration"
  | inputLeftover => "Unexpected tokens after INPUT"
  | expressionExpected => "OUTPUT requires '= expression'"
  | unknownType found => s!"Unknown pin type {found.text}"
  | expression fault => fault.message

end VoxelLogic.PinFile
