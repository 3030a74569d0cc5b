import VoxelLogic.Formula.Basic

/-!
# The written form of formulas

A gate is written as its keyword and its arguments in brackets, an input by the name of its
position, and a constant as `gnd` or `vdd`, the names of the two supply rails.  An input that has no
name is written `i` and its place.
-/

namespace VoxelLogic.Formula

/-- Arguments in brackets, separated by commas. -/
def bracketed (arguments : List String) : String :=
  "(" ++ String.intercalate ", " arguments ++ ")"

/-- The name of the input at a place. -/
def inputName (names : List String) (place : Nat) : String :=
  names[place]?.getD ("i" ++ toString place)

mutual

/-- The written form of a formula over named inputs. -/
def render (names : List String) : Formula → String
  | const false => "gnd"
  | const true => "vdd"
  | input i => inputName names i
  | not e => "NOT" ++ bracketed [render names e]
  | gate c es => c.keyword ++ bracketed (renderAll names es)
  | mux s x y => "MUX" ++ bracketed [render names s, render names x, render names y]
  | majority x y z => "MAJ" ++ bracketed [render names x, render names y, render names z]
  | lookUp mask es => "LUT 0x" ++ mask.text ++ bracketed (renderAll names es)

/-- The written forms of some formulas. -/
def renderAll (names : List String) : List Formula → List String
  | [] => []
  | e :: es => render names e :: renderAll names es

end

@[simp] theorem renderAll_eq_map (names : List String) (es : List Formula) :
    renderAll names es = es.map (render names) := by
  induction es with
  | nil => rfl
  | cons e es ih => rw [renderAll, ih, List.map_cons]

end VoxelLogic.Formula
