import VoxelLogic.Circuit.Basic
import VoxelLogic.Generator

/-!
# Random circuits

A random circuit has its inputs and its outputs on the first sites of the catalog, all of them
power, and one random gate for each output.  The gate takes each input with probability one half,
negated or not, and a single input if it has taken none.

* `Formula.draw`: a gate from any source of draws.
* `Circuit.draw?`: a circuit from any source of draws.
* `Circuit.random?`: the circuit that the generator of a seed gives.
-/

namespace VoxelLogic

variable {σ : Type} (draws : Draws σ)

/-! ## Formulas -/

namespace Formula

/-- Draws which of some inputs a gate takes, and which of them are negated. -/
def drawArguments : List Nat → σ → List Formula × σ
  | [], s => ([], s)
  | i :: is, s =>
    let (taken, s) := draws.coin s
    if taken then
      let (negated, s) := draws.flip s
      let (rest, s) := drawArguments is s
      ((if negated then not (input i) else input i) :: rest, s)
    else drawArguments is s

/-- Draws the arguments of a gate; there is at least one. -/
def drawSomeArguments (inputs : Nat) (s : σ) : List Formula × σ :=
  match drawArguments draws (List.range inputs) s with
  | ([], s) =>
    let (i, s) := draws.below inputs s
    ([input i], s)
  | (e :: es, s) => (e :: es, s)

/-- Draws a gate over a number of inputs, or a constant if there are none. -/
def draw (inputs : Nat) (s : σ) : Formula × σ :=
  if inputs = 0 then
    let (value, s) := draws.flip s
    (const value, s)
  else
    let (arguments, s) := drawSomeArguments draws inputs s
    let (kind, s) := draws.below Connective.all.length s
    (gate (Connective.all[kind]?.getD .and) arguments, s)

end Formula

/-! ## Circuits -/

/-- An output of power with a random gate. -/
def OutputPin.draw (inputs : Nat) (position : Position) (s : σ) : OutputPin :=
  ⟨position, .power, .formula (Formula.draw draws inputs s).1, position.takes_power⟩

namespace Circuit

/-- Draws one output for each of some positions. -/
def drawOutputs (inputs : Nat) : List Position → σ → List OutputPin
  | [], _ => []
  | p :: ps, s =>
    OutputPin.draw draws inputs p s :: drawOutputs inputs ps (Formula.draw draws inputs s).2

theorem position_drawOutputs (inputs : Nat) (ps : List Position) (s : σ) :
    (drawOutputs draws inputs ps s).map OutputPin.position = ps := by
  induction ps generalizing s with
  | nil => rfl
  | cons p ps ih => rw [drawOutputs, List.map_cons, ih, OutputPin.draw]

/-- The first sites of the catalog. -/
def firstSites (n : Nat) : List Position := (Position.all.take Position.siteCount).take n

theorem nodup_firstSites (n : Nat) : (firstSites n).Nodup :=
  Position.nodup_all.sublist ((List.take_sublist _ _).trans (List.take_sublist _ _))

/-- The circuit that is drawn from a state, unless it would have more inputs or outputs than there
are sites. -/
def draw? (inputs outputs : Nat) (s : σ) : Option Circuit :=
  if inputs ≤ Position.siteCount ∧ outputs ≤ Position.siteCount then
    some
      { inputs := (firstSites inputs).map InputPin.ofPower
        outputs := drawOutputs draws inputs (firstSites outputs) s
        inputs_nodup := by
          rw [List.map_map]
          exact (List.map_id'' (fun _ => rfl) (firstSites inputs)).symm ▸ nodup_firstSites inputs
        outputs_nodup := by
          rw [position_drawOutputs]
          exact nodup_firstSites outputs }
  else none

/-- The random circuit of a seed. -/
def random? (inputs outputs : Nat) (seed : UInt64) : Option Circuit :=
  draw? Generator.draws inputs outputs (Generator.ofSeed seed)

variable {draws} {inputs outputs : Nat} {s : σ}

/-- Every output is drawn for one of the positions. -/
theorem exists_of_mem_drawOutputs {ps : List Position} {pin : OutputPin}
    (h : pin ∈ drawOutputs draws inputs ps s) :
    ∃ p ∈ ps, ∃ s', pin = OutputPin.draw draws inputs p s' := by
  induction ps generalizing s with
  | nil => cases h
  | cons p ps ih =>
    rcases List.mem_cons.1 h with rfl | h
    · exact ⟨p, List.mem_cons_self, s, rfl⟩
    · obtain ⟨q, hq, hpin⟩ := ih h
      exact ⟨q, List.mem_cons_of_mem p hq, hpin⟩

theorem draw?_eq_some_iff {c : Circuit} :
    draw? draws inputs outputs s = some c ↔
      (inputs ≤ Position.siteCount ∧ outputs ≤ Position.siteCount) ∧
        c.inputs = (firstSites inputs).map InputPin.ofPower ∧
        c.outputs = drawOutputs draws inputs (firstSites outputs) s := by
  rw [draw?]
  split
  · next hsites =>
    rw [and_iff_right hsites]
    constructor
    · rintro ⟨⟩
      exact ⟨rfl, rfl⟩
    · obtain ⟨ins, outs, hins, houts⟩ := c
      rintro ⟨rfl, rfl⟩
      rfl
  · next hsites => exact iff_of_false nofun fun h => hsites h.1

end Circuit

end VoxelLogic
