import VoxelLogic.Circuit.Basic
import VoxelLogic.PinFile.Expression
import VoxelLogic.PinFile.Statement
import VoxelLogic.Text.Lines

/-!
# Reading pin files

A pin file is read in two rounds.  The first goes through the lines and finds the statement of
each; the first line that is refused ends it.  The second makes the pins, all inputs before all
outputs, since an output may be declared before the inputs it reads.  In both rounds the pins stay
in the order of their lines.

* `statements`: the first round.
* `circuit`: the second round.
* `read`: the circuit that a file describes.
-/

namespace VoxelLogic.PinFile

open Text

/-- A statement with the number of its line. -/
structure NumberedStatement where
  line : Nat
  statement : Statement
  deriving DecidableEq, Repr

/-- Reports a fault of a line. -/
def atLine {α : Type} (line : Nat) : Except LineFault α → Except Error α
  | .error fault => .error (.line line fault)
  | .ok value => .ok value

/-- The statement of a line, given as bytes. -/
def lineStatement (number : Nat) (line : List UInt8) : Except Error (Option Statement) :=
  match decode? line with
  | none => .error .unreadable
  | some text => atLine number (Statement.ofLine text.toList)

/-- The statements of lines that are numbered from `number` on. -/
def statementsFrom (number : Nat) : List (List UInt8) → Except Error (List NumberedStatement)
  | [] => .ok []
  | line :: lines =>
    match lineStatement number line with
    | .error e => .error e
    | .ok none => statementsFrom (number + 1) lines
    | .ok (some statement) =>
      (statementsFrom (number + 1) lines).map (⟨number, statement⟩ :: ·)

/-- The statements of a file. -/
def statements (content : List UInt8) : Except Error (List NumberedStatement) :=
  statementsFrom 1 (lines content)

/-- The input that a declaration makes. -/
def inputPin (line : Nat) (pin : Declaration) : Except Error InputPin := do
  let type ← atLine line (pinType pin.type)
  let position ← Position.read pin.position.text
  InputPin.make position type

/-- The formula of an expression, as the behaviour of an output. -/
def behaviour (inputs : List Position) (tokens : List Token) :
    Except LineFault Behaviour :=
  match parseExpression inputs.idxOf? tokens with
  | .error fault => .error (.expression fault)
  | .ok f => .ok (.formula f)

/-- The output that a declaration makes. -/
def outputPin (inputs : List Position) (line : Nat) (pin : Declaration) (tokens : List Token) :
    Except Error OutputPin := do
  let type ← atLine line (pinType pin.type)
  let behaviour ← atLine line (behaviour inputs tokens)
  let position ← Position.read pin.position.text
  OutputPin.make position type behaviour

/-- The inputs that statements declare. -/
def inputPins : List NumberedStatement → Except Error (List InputPin)
  | [] => .ok []
  | ⟨line, .input pin⟩ :: rest => do
    let first ← inputPin line pin
    let more ← inputPins rest
    return first :: more
  | ⟨_, .output ..⟩ :: rest => inputPins rest

/-- The outputs that statements declare over some inputs. -/
def outputPins (inputs : List Position) : List NumberedStatement → Except Error (List OutputPin)
  | [] => .ok []
  | ⟨_, .input _⟩ :: rest => outputPins inputs rest
  | ⟨line, .output pin tokens⟩ :: rest => do
    let first ← outputPin inputs line pin tokens
    let more ← outputPins inputs rest
    return first :: more

/-- The circuit that statements describe. -/
def circuit (statements : List NumberedStatement) : Except Error Circuit := do
  let inputs ← inputPins statements
  let c ← Circuit.empty.withInputs inputs
  let outputs ← outputPins c.inputPositions statements
  c.withOutputs outputs

/-- The circuit that a file describes. -/
def read (content : List UInt8) : Except Error Circuit := (statements content).bind circuit

end VoxelLogic.PinFile
