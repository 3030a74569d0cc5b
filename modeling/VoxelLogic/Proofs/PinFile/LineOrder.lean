import VoxelLogic.Proofs.Formula.Renamed
import VoxelLogic.Proofs.PinFile.Accepted
import VoxelLogic.Proofs.Record.CanonicalForm
import Mathlib.Data.List.Perm.Basic

/-!
# The order of the lines of a file

The lines of a pin file may stand in any order.  Another order of the inputs gives them other
places, so the formulas of the outputs are renamed, and another order of the outputs lists them in
that order; both describe the same module.

* `placeIn`: where an input of one list of positions stands in another.
* `Derives.rename`, `parseExpression_rename`: expressions over inputs with other places.
* `exists_read_of_perm`: the circuit of a file with its lines in another order.
* `sameModule_of_read_perm`: it describes the same module.
* `read_perm`: acceptance, records, and files that keep the order of inputs and of outputs.
-/

namespace VoxelLogic

/-! ## Places in another order -/

/-- The place in `qs` of the position that stands at a place of `ps`. -/
def placeIn (ps qs : List Position) (place : Nat) : Nat := (ps[place]?).elim place qs.idxOf

section Places

variable {ps qs : List Position}

/-- Positions are found at their new places. -/
theorem idxOf?_map_placeIn (h : ps.Perm qs) (p : Position) :
    (ps.idxOf? p).map (placeIn ps qs) = qs.idxOf? p := by
  by_cases hp : p ∈ ps
  · have hget : ps[ps.idxOf p]? = some p := by
      rw [List.getElem?_eq_getElem (List.idxOf_lt_length_of_mem hp), List.getElem_idxOf]
    rw [idxOf?_eq_some_of_mem hp, idxOf?_eq_some_of_mem (h.mem_iff.1 hp), Option.map_some, placeIn,
      hget, Option.elim_some]
  · rw [List.idxOf?_eq_none_iff.2 hp, List.idxOf?_eq_none_iff.2 fun hq => hp (h.mem_iff.2 hq),
      Option.map_none]

/-- The values of positions move with their places. -/
theorem getElem?_map_placeIn (h : ps.Perm qs) (v : Position → Bool) (i : Nat) :
    (qs.map v)[placeIn ps qs i]? = (ps.map v)[i]? := by
  rcases Nat.lt_or_ge i ps.length with hi | hi
  · have hq : ps[i] ∈ qs := h.mem_iff.1 (List.getElem_mem hi)
    rw [placeIn, List.getElem?_map, List.getElem?_map, List.getElem?_eq_getElem hi,
      Option.elim_some, getElem?_idxOf hq]
  · have hq : qs.length ≤ i := by rwa [← h.length_eq]
    rw [placeIn, List.getElem?_eq_none hi, Option.elim_none, List.getElem?_map, List.getElem?_map,
      List.getElem?_eq_none hq, List.getElem?_eq_none hi]

end Places

/-- A behaviour with other places for its inputs.  Only formulas name inputs by place. -/
def Behaviour.rename (σ : Nat → Nat) : Behaviour → Behaviour
  | formula f => .formula (f.rename σ)
  | lookUp rows k => .lookUp rows k
  | blackBox value? => .blackBox value?

/-- An output with other places for its inputs. -/
def OutputPin.rename (σ : Nat → Nat) (pin : OutputPin) : OutputPin :=
  { pin with behaviour := pin.behaviour.rename σ }

namespace PinFile

open Text

/-! ## Expressions over renamed inputs -/

variable {σ : Nat → Nat}

theorem FixedGate.Makes.rename {gate : FixedGate} {es : List Formula} {e : Formula}
    (h : gate.Makes es e) (σ : Nat → Nat) :
    gate.Makes (es.map (Formula.rename σ)) (e.rename σ) := by
  cases h <;> constructor

/-- Inputs with other places derive the renamed formula. -/
theorem Derives.rename {place? : Position → Option Nat} {tokens : List Token} {e : Formula}
    (h : Derives place? tokens e) (σ : Nat → Nat) :
    Derives (fun p => (place? p).map σ) tokens (e.rename σ) := by
  have hall {parts : List (List Token)} {es : List Formula}
      (ih : List.Forall₂ (fun x e => Derives (fun p => (place? p).map σ) x (e.rename σ)) parts es) :
      List.Forall₂ (Derives fun p => (place? p).map σ) parts (es.map (Formula.rename σ)) :=
    List.forall₂_map_right_iff.2 ih
  have hne {es : List Formula} (h : es ≠ []) : es.map (Formula.rename σ) ≠ [] := by
    simpa using h
  refine Derives.induct
    (motive := fun x e => Derives (fun p => (place? p).map σ) x (e.rename σ))
    ?const ?input ?fixed ?gate ?lookUp h
  case const =>
    intro token value htoken
    exact .const htoken
  case input =>
    intro token p place htoken hplace
    exact .input htoken (by rw [hplace, Option.map_some])
  case fixed =>
    intro token gate parts es e htoken hmakes _ ih
    exact .fixed htoken (hmakes.rename σ) (hall ih)
  case gate =>
    intro token connective parts es htoken hes _ ih
    rw [Formula.rename, Formula.renameAll_eq_map]
    exact .gate htoken (hne hes) (hall ih)
  case lookUp =>
    intro token hex mask parts es htoken hhex hes _ ih
    rw [Formula.rename, Formula.renameAll_eq_map]
    refine .lookUp htoken ?_ (hne hes) (hall ih)
    rwa [List.length_map]

theorem parseExpression_rename {place? : Position → Option Nat} {tokens : List Token} {e : Formula}
    (h : parseExpression place? tokens = .ok e) (σ : Nat → Nat) :
    parseExpression (fun p => (place? p).map σ) tokens = .ok (e.rename σ) := by
  exact parseExpression_eq_ok_iff.2 ((parseExpression_eq_ok_iff.1 h).rename σ)

/-- A declaration makes the renamed output over inputs in another order. -/
theorem MakesOutput.rename {ps qs : List Position} {declared : Declaration × List Token}
    {pin : OutputPin} (h : MakesOutput ps declared pin) (hperm : ps.Perm qs) :
    MakesOutput qs declared (pin.rename (placeIn ps qs)) := by
  obtain ⟨f, hparse, hformula⟩ := h.formula
  have hbehaviour := Behaviour.eq_formula_of_formula? hformula
  refine ⟨h.position, h.type, f.rename (placeIn ps qs), ?_, ?_⟩
  · have hplaces : (fun p => (ps.idxOf? p).map (placeIn ps qs)) = qs.idxOf? :=
      funext (idxOf?_map_placeIn hperm)
    rw [← hplaces]
    exact parseExpression_rename hparse _
  · rw [OutputPin.rename, hbehaviour]
    rfl

/-! ## Files with their lines in another order -/

variable {x y : List UInt8} {c d : Circuit}

/-- **A file with its lines in another order** is accepted.  Its circuit lists the same inputs in
some order, and the same outputs, with their inputs renamed, in some order. -/
theorem exists_read_of_perm (h : (lines x).Perm (lines y)) (hc : read x = .ok c) :
    ∃ d, read y = .ok d ∧ d.inputs.Perm c.inputs ∧
      d.outputs.Perm
        (c.outputs.map (OutputPin.rename (placeIn c.inputPositions d.inputPositions))) := by
  obtain ⟨hdeclared, hinputs, houtputs⟩ := read_eq_ok_iff.1 hc
  obtain ⟨ins, hins, hinsPerm⟩ := List.perm_comp_forall₂ (h.symm.filterMap lineInput?) hinputs
  have hpositions : c.inputPositions.Perm (ins.map InputPin.position) :=
    (hinsPerm.map InputPin.position).symm
  have hrenamed : List.Forall₂ (MakesOutput (ins.map InputPin.position))
      ((lines x).filterMap lineOutput?)
      (c.outputs.map (OutputPin.rename (placeIn c.inputPositions (ins.map InputPin.position)))) :=
    List.forall₂_map_right_iff.2 (houtputs.imp fun _ _ hmakes => hmakes.rename hpositions)
  obtain ⟨outs, houts, houtsPerm⟩ :=
    List.perm_comp_forall₂ (h.symm.filterMap lineOutput?) hrenamed
  have houtsNodup : (outs.map OutputPin.position).Nodup := by
    have hmap := houtsPerm.map OutputPin.position
    rw [List.map_map] at hmap
    exact hmap.nodup_iff.2 c.outputs_nodup
  refine ⟨⟨ins, outs, hpositions.nodup_iff.1 c.inputs_nodup, houtsNodup⟩, read_eq_ok_iff.2
    ⟨fun line hline => hdeclared line (h.mem_iff.2 hline), hins, houts⟩, hinsPerm, houtsPerm⟩

/-- A file with its lines in another order describes the same module. -/
theorem sameModule_of_read_perm (h : (lines x).Perm (lines y)) (hc : read x = .ok c)
    (hd : read y = .ok d) : c.SameModule d := by
  obtain ⟨found, hfound, hinputs, houtputs⟩ := exists_read_of_perm h hc
  obtain rfl : found = d := Except.ok.inj (hfound.symm.trans hd)
  have hpositions : c.inputPositions.Perm found.inputPositions :=
    (hinputs.map InputPin.position).symm
  have hinputCodes : found.inputCodes.Perm c.inputCodes := hinputs.map _
  have houtputCodes : found.outputCodes.Perm c.outputCodes := by
    have hmap := houtputs.map fun pin => (pin.position, pin.type.code)
    rw [List.map_map] at hmap
    exact hmap
  refine ⟨fun _ => hinputCodes.symm.mem_iff, fun _ => houtputCodes.symm.mem_iff, fun v p hp => ?_⟩
  obtain ⟨pin, hpin, rfl⟩ := List.mem_map.1 hp
  obtain ⟨f, hbehaviour, -⟩ := isReadable_of_read hc hpin
  have hrenamed := houtputs.mem_iff.2 (List.mem_map_of_mem hpin)
  have hvalue := Circuit.outputAt?_of_mem hrenamed (found.assignmentOf v)
  rw [Circuit.valueAt?, Circuit.valueAt?, Circuit.outputAt?_of_mem hpin]
  refine Eq.trans ?_ hvalue.symm
  rw [OutputPin.value?, OutputPin.value?, OutputPin.rename, hbehaviour]
  exact (Formula.value?_rename (getElem?_map_placeIn hpositions v) f).symm

/-- Whether a line declares an input. -/
def declaresInput (line : List UInt8) : Bool := (lineInput? line).isSome

/-- Whether a line declares an output. -/
def declaresOutput (line : List UInt8) : Bool := (lineOutput? line).isSome

/-- What is read from two lists is the same if the members from which something is read are. -/
theorem filterMap_eq_of_filter_eq {α β : Type} {f : α → Option β} {xs ys : List α}
    (h : (xs.filter fun a => (f a).isSome) = ys.filter fun a => (f a).isSome) :
    xs.filterMap f = ys.filterMap f := by
  have hfilter (zs : List α) :
      (zs.filter fun a => (f a).isSome).filterMap f = zs.filterMap f := by
    rw [List.filterMap_filter]
    congr 1
    funext a
    cases f a <;> rfl
  rw [← hfilter xs, ← hfilter ys, h]

/-- Files that declare the same inputs and the same outputs, each in the same order, have one
circuit. -/
theorem eq_of_declarations_eq
    (hinputs : (lines x).filter declaresInput = (lines y).filter declaresInput)
    (houtputs : (lines x).filter declaresOutput = (lines y).filter declaresOutput)
    (hc : read x = .ok c) (hd : read y = .ok d) : c = d := by
  obtain ⟨-, hcIns, hcOuts⟩ := read_eq_ok_iff.1 hc
  obtain ⟨-, hdIns, hdOuts⟩ := read_eq_ok_iff.1 hd
  have hins : (lines x).filterMap lineInput? = (lines y).filterMap lineInput? :=
    filterMap_eq_of_filter_eq hinputs
  have houts : (lines x).filterMap lineOutput? = (lines y).filterMap lineOutput? :=
    filterMap_eq_of_filter_eq houtputs
  rw [← hins] at hdIns
  rw [← houts] at hdOuts
  have hpins : c.inputs = d.inputs :=
    List.right_unique_forall₂' (fun _ _ _ h hother => h.unique hother) hcIns hdIns
  rw [Circuit.inputPositions, ← hpins, ← Circuit.inputPositions] at hdOuts
  have houtPins : c.outputs = d.outputs :=
    List.right_unique_forall₂' (fun _ _ _ h hother => h.unique hother) hcOuts hdOuts
  cases c
  cases d
  cases hpins
  cases houtPins
  rfl

/-- **The order of lines.**  A file with its lines in another order is accepted exactly if the file
is.  The circuits of both compile to one record.  If the lines of inputs keep their order and the
lines of outputs theirs, both files have the same circuit. -/
theorem read_perm (h : (lines x).Perm (lines y)) :
    ((∃ c, read x = .ok c) ↔ ∃ d, read y = .ok d) ∧
    ∀ c d, read x = .ok c → read y = .ok d →
      (∃ t s r, c.compile? = some t ∧ d.compile? = some s ∧
        Record.ofTable c t = .ok r ∧ Record.ofTable d s = .ok r) ∧
      ((lines x).filter declaresInput = (lines y).filter declaresInput →
        (lines x).filter declaresOutput = (lines y).filter declaresOutput → c = d) := by
  refine ⟨⟨?_, ?_⟩, fun c d hc hd => ⟨?_, fun hinputs houtputs => ?_⟩⟩
  · rintro ⟨c, hc⟩
    obtain ⟨d, hd, -⟩ := exists_read_of_perm h hc
    exact ⟨d, hd⟩
  · rintro ⟨d, hd⟩
    obtain ⟨c, hc, -⟩ := exists_read_of_perm h.symm hd
    exact ⟨c, hc⟩
  · obtain ⟨t, ht⟩ := Circuit.isTotal_iff.1 (isTotal_of_read hc)
    obtain ⟨s, hs⟩ := Circuit.isTotal_iff.1 (isTotal_of_read hd)
    have hrecord := Record.stored_congr ht hs (sameModule_of_read_perm h hc hd)
    exact ⟨t, s, Record.stored c t, ht, hs,
      Record.ofTable_eq_ok_iff.2 ⟨Circuit.checkTable_of_compile? ht, rfl⟩,
      Record.ofTable_eq_ok_iff.2 ⟨Circuit.checkTable_of_compile? hs, hrecord⟩⟩
  · exact eq_of_declarations_eq hinputs houtputs hc hd

/-! ## A file in three orders -/

/-- The bytes of a file with some lines. -/
def fileOf (texts : List String) : List UInt8 := encode (String.join (texts.map (· ++ "\n")))

/-- Two inputs under a comment. -/
def comparedInputs : List String := ["# the bits to compare", "INPUT(L)", "INPUT(R, 7)"]

/-- Two outputs that compare them. -/
def comparedOutputs : List String := ["OUTPUT(FT) = XOR(L, R)", "", "OUTPUT(FD) = and(L, NOT(R))"]

/-- A file that compares two bits. -/
def comparison : List String := comparedInputs ++ comparedOutputs

/-- The circuit of that file. -/
def comparator : Circuit where
  inputs := [.ofPower (.site .middle .middle .left), ⟨.site .middle .middle .right, .other 7, rfl⟩]
  outputs := [
    ⟨.site .front .top .middle, .power, .formula (.gate .xor [.input 0, .input 1]), rfl⟩,
    ⟨.site .front .down .middle, .power, .formula (.gate .and [.input 0, .not (.input 1)]), rfl⟩]
  inputs_nodup := firstRepeat?_eq_none_iff.1 rfl
  outputs_nodup := firstRepeat?_eq_none_iff.1 rfl

/-- The tokens of the first output. -/
def differTokens : List Token := .word "XOR" :: enclosed [[.word "L"], [.word "R"]]

/-- The tokens of the second output. -/
def exceedTokens : List Token :=
  .word "and" :: enclosed [[.word "L"], .word "NOT" :: enclosed [[.word "R"]]]

/-- The lines of the file, the last of them empty. -/
theorem declared?_comparison : (lines (fileOf comparison)).map declared? =
    [some none, some (some (.input ⟨.word "L", none⟩)),
      some (some (.input ⟨.word "R", some (.word "7")⟩)),
      some (some (.output ⟨.word "FT", none⟩ differTokens)), some none,
      some (some (.output ⟨.word "FD", none⟩ exceedTokens)), some none] := by
  decide +kernel

/-- The file in its first order. -/
theorem read_comparison : read (fileOf comparison) = .ok comparator := by
  have hdeclared : ∀ found ∈ (lines (fileOf comparison)).map declared?, found.isSome = true := by
    rw [declared?_comparison]
    decide
  have hinput : (lines (fileOf comparison)).filterMap lineInput? =
      ((lines (fileOf comparison)).map declared?).filterMap (·.join.bind Statement.input?) :=
    (List.filterMap_map (f := declared?) (g := (·.join.bind Statement.input?))).symm
  have houtput : (lines (fileOf comparison)).filterMap lineOutput? =
      ((lines (fileOf comparison)).map declared?).filterMap (·.join.bind Statement.output?) :=
    (List.filterMap_map (f := declared?) (g := (·.join.bind Statement.output?))).symm
  have hleft : Derives comparator.inputPositions.idxOf? [.word "L"] (.input 0) :=
    .input (p := .site .middle .middle .left) rfl (by decide)
  have hright : Derives comparator.inputPositions.idxOf? [.word "R"] (.input 1) :=
    .input (p := .site .middle .middle .right) rfl (by decide)
  have hdiffer : Derives comparator.inputPositions.idxOf? differTokens
      (.gate .xor [.input 0, .input 1]) :=
    .gate (by decide) (List.cons_ne_nil _ _) (.cons hleft (.cons hright .nil))
  have hexceed : Derives comparator.inputPositions.idxOf? exceedTokens
      (.gate .and [.input 0, .not (.input 1)]) :=
    .gate (by decide) (List.cons_ne_nil _ _)
      (.cons hleft (.cons (.fixed (by decide) (.not _) (.cons hright .nil)) .nil))
  have htype : pinType (some (.word "7")) = .ok (.other 7) := by decide
  rw [read_eq_ok_iff, hinput, houtput, declared?_comparison]
  refine ⟨List.forall_mem_map.1 hdeclared, .cons ⟨rfl, rfl⟩ (.cons ⟨rfl, htype⟩ .nil),
    .cons ⟨rfl, rfl, ?_⟩ (.cons ⟨rfl, rfl, ?_⟩ .nil)⟩
  · exact ⟨_, parseExpression_eq_ok_iff.2 hdiffer, rfl⟩
  · exact ⟨_, parseExpression_eq_ok_iff.2 hexceed, rfl⟩

/-- The file is accepted from the last line to the first, with the same record, and with outputs
before inputs, as the same circuit. -/
theorem read_perm_comparison :
    (∃ d t s r, read (fileOf comparison.reverse) = .ok d ∧
      comparator.compile? = some t ∧ d.compile? = some s ∧
      Record.ofTable comparator t = .ok r ∧ Record.ofTable d s = .ok r) ∧
    read (fileOf (comparedOutputs ++ comparedInputs)) = .ok comparator := by
  constructor
  · have hperm : (lines (fileOf comparison)).Perm (lines (fileOf comparison.reverse)) := by
      decide +kernel
    obtain ⟨hiff, hboth⟩ := read_perm hperm
    obtain ⟨d, hd⟩ := hiff.1 ⟨comparator, read_comparison⟩
    obtain ⟨⟨t, s, r, ht, hs, hrt, hrs⟩, -⟩ := hboth comparator d read_comparison hd
    exact ⟨d, t, s, r, hd, ht, hs, hrt, hrs⟩
  · have hperm : (lines (fileOf comparison)).Perm
        (lines (fileOf (comparedOutputs ++ comparedInputs))) := by
      decide +kernel
    have hinputs : (lines (fileOf comparison)).filter declaresInput =
        (lines (fileOf (comparedOutputs ++ comparedInputs))).filter declaresInput := by
      decide +kernel
    have houtputs : (lines (fileOf comparison)).filter declaresOutput =
        (lines (fileOf (comparedOutputs ++ comparedInputs))).filter declaresOutput := by
      decide +kernel
    obtain ⟨hiff, hboth⟩ := read_perm hperm
    obtain ⟨d, hd⟩ := hiff.1 ⟨comparator, read_comparison⟩
    rw [(hboth comparator d read_comparison hd).2 hinputs houtputs, hd]

end PinFile

end VoxelLogic
