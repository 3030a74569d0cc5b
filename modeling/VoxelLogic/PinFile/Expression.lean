import VoxelLogic.Formula.Basic
import VoxelLogic.PinFile.Fault
import VoxelLogic.Position
import VoxelLogic.Text.Reading

/-!
# Expressions of a pin file

The expression of an output is a list of tokens:

    E = 0 | GND | VSS | 1 | VDD | position
      | NOT ( E ) | BUF ( E ) | BUFF ( E ) | MUX ( E , E , E ) | MAJ ( E , E , E )
      | LUT mask ( E { , E } )
      | AND ( E { , E } ) and so on for the other connectives

Keywords are read in any letter case and win over positions, which are read as they stand.  A
buffer is its argument.  The readers are told the place of each input by a map from positions, so
they know nothing of the circuit that the expression belongs to.

* `readExpression`, `readArguments`: the two readers, which call each other.  Each ends because what
  it leaves is shorter than what it was given.
* `parseExpression`: an expression that takes all tokens.
-/

namespace VoxelLogic.PinFile

open Text

/-- What a keyword at the start of an expression announces. -/
inductive Head where
  | const (value : Bool)
  | fixed (gate : FixedGate)
  | gate (connective : Connective)
  | lookUp
  deriving DecidableEq, Repr

/-- Reads a keyword in any letter case. -/
def Head.ofText? (text : String) : Option Head :=
  match capitals text with
  | "0" | "GND" | "VSS" => some (.const false)
  | "1" | "VDD" => some (.const true)
  | "NOT" => some (.fixed .not)
  | "BUF" | "BUFF" => some (.fixed .buffer)
  | "MUX" => some (.fixed .mux)
  | "MAJ" => some (.fixed .majority)
  | "LUT" => some .lookUp
  | _ => (Connective.ofKeyword? text).map .gate

/-- The gate over some arguments, if their number is right. -/
def FixedGate.formula? : FixedGate → List Formula → Option Formula
  | not, [e] => some (.not e)
  | buffer, [e] => some e
  | mux, [s, x, y] => some (.mux s x y)
  | majority, [x, y, z] => some (.majority x y z)
  | _, _ => none

/-- The input that a token names, if its position has a place among the inputs. -/
def operand (place? : Position → Option Nat) (token : Token) : Except ExpressionFault Formula :=
  match Position.ofToken? token.text with
  | none => .error (.unknownOperand token)
  | some position =>
    match place? position with
    | none => .error (.notAnInput token)
    | some place => .ok (.input place)

/-- The digits of a mask, without the mark `0x` that starts it. -/
def maskDigits? (token : Token) : Option (List Char) :=
  match token.text.toList with
  | '0' :: 'x' :: digits => some digits
  | _ => none

/-- The mask that is written with some digits, for a number of arguments. -/
def readMask (arguments : Nat) (digits : List Char) : Except ExpressionFault Mask :=
  if Mask.isStorable arguments then
    match Mask.ofText? arguments digits with
    | none => .error (.badMask (String.ofList digits))
    | some mask => .ok mask
  else .error (.maskTooLarge arguments)

mutual

/-- Reads an expression. -/
def readExpression (place? : Position → Option Nat) :
    (source : List Token) → Except ExpressionFault (Reading Formula source)
  | [] => .error .ended
  | token :: rest =>
    match Head.ofText? token.text with
    | none =>
      match operand place? token with
      | .error fault => .error fault
      | .ok e => .ok (.ofHead e token rest)
    | some (.const value) => .ok (.ofHead (.const value) token rest)
    | some (.fixed gate) =>
      match readArguments place? rest with
      | .error fault => .error fault
      | .ok r =>
        match gate.formula? r.value with
        | none => .error (.arity gate r.value.length)
        | some e => .ok ((r.map fun _ => e).afterHead token)
    | some (.gate connective) =>
      match readArguments place? rest with
      | .error fault => .error fault
      | .ok r => .ok ((r.map (.gate connective)).afterHead token)
    | some .lookUp =>
      match rest with
      | [] => .error .ended
      | hex :: rest =>
        match maskDigits? hex with
        | none => .error (.maskMarkExpected hex)
        | some digits =>
          match readArguments place? rest with
          | .error fault => .error fault
          | .ok r =>
            match readMask r.value.length digits with
            | .error fault => .error fault
            | .ok mask => .ok (((r.map (.lookUp mask)).afterHead hex).afterHead token)
termination_by source => source.length

/-- Reads one or more arguments in brackets. -/
def readArguments (place? : Position → Option Nat) :
    (source : List Token) → Except ExpressionFault (Reading (List Formula) source)
  | [] => .error .ended
  | .leftParen :: rest =>
    match readExpression place? rest with
    | .error fault => .error fault
    | .ok first =>
      match readMoreArguments place? first.rest with
      | .error fault => .error fault
      | .ok more => .ok ((first.after (more.map (first.value :: ·))).afterHead .leftParen)
  | token :: _ => .error (.argumentsExpected token)
termination_by source => source.length
decreasing_by
  · exact Nat.lt_succ_self _
  · exact Nat.lt_succ_of_lt first.shorter

/-- Reads the arguments after the first, up to the closing bracket. -/
def readMoreArguments (place? : Position → Option Nat) :
    (source : List Token) → Except ExpressionFault (Reading (List Formula) source)
  | [] => .error .ended
  | .rightParen :: rest => .ok (.ofHead [] .rightParen rest)
  | .comma :: rest =>
    match readExpression place? rest with
    | .error fault => .error fault
    | .ok next =>
      match readMoreArguments place? next.rest with
      | .error fault => .error fault
      | .ok more => .ok ((next.after (more.map (next.value :: ·))).afterHead .comma)
  | token :: _ => .error (.separatorExpected token)
termination_by source => source.length
decreasing_by
  · exact Nat.lt_succ_self _
  · exact Nat.lt_succ_of_lt next.shorter

end

/-- Reads an expression that takes all tokens. -/
def parseExpression (place? : Position → Option Nat) (tokens : List Token) :
    Except ExpressionFault Formula :=
  match readExpression place? tokens with
  | .error fault => .error fault
  | .ok r => if r.rest = [] then .ok r.value else .error .leftover

end VoxelLogic.PinFile
