import VoxelLogic.Circuit.Tabulate
import VoxelLogic.Text.Column

/-!
# Summary of a circuit

How many pins and rows a circuit has, how many of its pins carry state, and in how many rows each
output is set.
-/

namespace VoxelLogic

/-- What is counted in a circuit. -/
structure Summary where
  inputs : List Position
  outputs : List Position
  rows : Nat
  /-- For each output, the number of rows in which it is set. -/
  ones : List Nat
  deriving DecidableEq, Repr

namespace Summary

/-- Number of inputs on state slots. -/
def stateInputs (s : Summary) : Nat := s.inputs.countP Position.isState

/-- Number of outputs on state slots. -/
def stateOutputs (s : Summary) : Nat := s.outputs.countP Position.isState

/-- Number of outputs that never change. -/
def constantOutputs (s : Summary) : Nat := s.ones.countP fun n => n == 0 || n == s.rows

/-- A line of the summary that is left out if there is nothing to count. -/
def detail (label : String) (n : Nat) : List String :=
  if n = 0 then [] else [s!"      {label}: {n}"]

/-- The line of an output. -/
def outputLine (s : Summary) (position : Position) (ones : Nat) : String :=
  s!"  {Text.pad .left 3 position.token}: {ones}/{s.rows}"

/-- The summary in lines. -/
def lines (s : Summary) : List String :=
  ["Stats:", s!"  Inputs: {s.inputs.length}"] ++ detail "state" s.stateInputs ++
    [s!"  Outputs: {s.outputs.length}"] ++ detail "state" s.stateOutputs ++
    detail "constant" s.constantOutputs ++
    [s!"  Rows: {s.rows}"] ++ List.zipWith s.outputLine s.outputs s.ones

/-- The summary as a text. -/
def render (s : Summary) : String := String.join (s.lines.map (· ++ "\n"))

end Summary

namespace Circuit

/-- The summary of a circuit, if it can be tabulated. -/
def summary? (c : Circuit) : Option Summary :=
  c.entries?.map fun entries =>
    { inputs := c.inputPositions
      outputs := c.outputPositions
      rows := c.rowCount
      ones := (List.range c.outputs.length).map fun k =>
        entries.countP fun e => e.outputs[k]?.getD false }

end Circuit

end VoxelLogic
