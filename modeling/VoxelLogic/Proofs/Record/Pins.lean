import VoxelLogic.Proofs.TruthTable.Inverse

/-!
# Which circuit a record describes

Reading the pins of a record is a chain of steps that may fail.  Each step is described by what it
returns when it succeeds, and the description of the whole chain is `circuit_eq_ok_iff`: the pins of
the circuit are the used positions with their types, the table is accepted for them, and output `k`
looks up bit `k` of the rows.

* `InputPin.make_eq_ok_iff`, `OutputPin.make_eq_ok_iff`: making a pin adds nothing to its parts.
* `makeInputs_eq_ok_iff`, `makeOutputs_eq_ok_iff`: making many pins.
* `Circuit.ofPins_eq_ok_iff`: a circuit from its pins.
* `exists_circuit`: when there is one.
* `behaviour_getElem_of_circuit`, `check_of_circuit`, `isTotal_of_circuit`: what the outputs do.
* `entries?_of_circuit`, `exists_truthTable`: the truth table is what the rows are decoded to.
-/

namespace VoxelLogic

theorem InputPin.make_eq_ok_iff {p : Position} {type : PinType} {pin : InputPin} :
    InputPin.make p type = .ok pin ↔ pin.position = p ∧ pin.type = type := by
  rw [InputPin.make]
  split
  · next takes =>
    rw [Except.ok.injEq]
    constructor
    · rintro rfl
      exact ⟨rfl, rfl⟩
    · rintro ⟨rfl, rfl⟩
      rfl
  · next hnot =>
    constructor
    · intro h
      cases h
    · rintro ⟨rfl, rfl⟩
      exact absurd pin.takes hnot

theorem OutputPin.make_eq_ok_iff {p : Position} {type : PinType} {behaviour : Behaviour}
    {pin : OutputPin} :
    OutputPin.make p type behaviour = .ok pin ↔
      pin.position = p ∧ pin.type = type ∧ pin.behaviour = behaviour := by
  rw [OutputPin.make]
  split
  · next takes =>
    rw [Except.ok.injEq]
    constructor
    · rintro rfl
      exact ⟨rfl, rfl, rfl⟩
    · rintro ⟨rfl, rfl, rfl⟩
      rfl
  · next hnot =>
    constructor
    · intro h
      cases h
    · rintro ⟨rfl, rfl, rfl⟩
      exact absurd pin.takes hnot

/-- What a position takes depends on the code only. -/
theorem Position.takes_ofCode (p : Position) (type : PinType) :
    p.takes (PinType.ofCode type.code) = p.takes type := by
  rw [Position.takes, Position.takes, PinType.isPower, PinType.isPower, PinType.code_ofCode]

/-- A position that carries state takes the code of power only. -/
theorem Position.takes_iff {p : Position} {type : PinType} :
    p.takes type = true ↔ (p.isState = true → type.code = 0) := by
  rw [Position.takes, Bool.or_eq_true, PinType.isPower_iff]
  cases p.isState <;> simp

theorem Position.takes_ofCode_iff {p : Position} {code : UInt8} :
    p.takes (.ofCode code) = true ↔ (p.isState = true → code = 0) := by
  rw [Position.takes_iff, PinType.code_ofCode]

namespace Circuit

theorem withInputs_eq_ok_iff {c d : Circuit} {inputs : List InputPin} :
    c.withInputs inputs = .ok d ↔ d.inputs = inputs ∧ d.outputs = c.outputs := by
  unfold withInputs
  split
  · next position place h =>
    constructor
    · intro hok
      cases hok
    · rintro ⟨rfl, -⟩
      rw [firstRepeat?_eq_none_iff.2 d.inputs_nodup] at h
      cases h
  · rw [Except.ok.injEq]
    constructor
    · rintro rfl
      exact ⟨rfl, rfl⟩
    · rintro ⟨rfl, hout⟩
      cases d
      cases hout
      rfl

theorem withOutputs_eq_ok_iff {c d : Circuit} {outputs : List OutputPin} :
    c.withOutputs outputs = .ok d ↔ d.outputs = outputs ∧ d.inputs = c.inputs := by
  unfold withOutputs
  split
  · next position place h =>
    constructor
    · intro hok
      cases hok
    · rintro ⟨rfl, -⟩
      rw [firstRepeat?_eq_none_iff.2 d.outputs_nodup] at h
      cases h
  · rw [Except.ok.injEq]
    constructor
    · rintro rfl
      exact ⟨rfl, rfl⟩
    · rintro ⟨rfl, hin⟩
      cases d
      cases hin
      rfl

/-- The circuit with some pins has these pins. -/
theorem ofPins_eq_ok_iff {d : Circuit} {inputs : List InputPin} {outputs : List OutputPin} :
    ofPins inputs outputs = .ok d ↔ d.inputs = inputs ∧ d.outputs = outputs := by
  simp only [ofPins, bind_eq_ok_iff, withInputs_eq_ok_iff, withOutputs_eq_ok_iff]
  constructor
  · rintro ⟨c, ⟨rfl, -⟩, hout, hin⟩
    exact ⟨hin, hout⟩
  · rintro ⟨hin, hout⟩
    refine ⟨⟨inputs, [], ?_, List.nodup_nil⟩, ⟨rfl, rfl⟩, hout, hin⟩
    rw [← hin]
    exact d.inputs_nodup

end Circuit

namespace Record

/-- The parts of an input. -/
def inputParts (pin : InputPin) : Position × PinType := (pin.position, pin.type)

/-- The parts of an output. -/
def outputParts (pin : OutputPin) : Position × PinType × Behaviour :=
  (pin.position, pin.type, pin.behaviour)

theorem inputParts_injective : Function.Injective inputParts := by
  rintro ⟨p, type, takes⟩ ⟨q, other, takes'⟩ h
  cases h
  rfl

theorem outputParts_injective : Function.Injective outputParts := by
  rintro ⟨p, type, behaviour, takes⟩ ⟨q, other, behaviour', takes'⟩ h
  cases h
  rfl

/-- There are inputs of any parts in which every position takes its type. -/
theorem exists_inputs {parts : List (Position × PinType)}
    (h : ∀ e ∈ parts, e.1.takes e.2 = true) :
    ∃ pins : List InputPin, pins.map inputParts = parts := by
  refine ⟨parts.pmap (fun e he => ⟨e.1, e.2, he⟩) h, ?_⟩
  rw [List.map_pmap]
  exact List.pmap_eq_self.2 fun _ _ => rfl

/-- There are outputs of any parts in which every position takes its type. -/
theorem exists_outputs {parts : List (Position × PinType × Behaviour)}
    (h : ∀ e ∈ parts, e.1.takes e.2.1 = true) :
    ∃ pins : List OutputPin, pins.map outputParts = parts := by
  refine ⟨parts.pmap (fun e he => ⟨e.1, e.2.1, e.2.2, he⟩) h, ?_⟩
  rw [List.map_pmap]
  exact List.pmap_eq_self.2 fun _ _ => rfl

/-- The parts of outputs that look up their bits in a table, numbered from `k` on. -/
def lookUpParts (rows : Array PackedRow) (k : Nat) (pairs : List (Position × PinType)) :
    List (Position × PinType × Behaviour) :=
  (pairs.zipIdx k).map fun e => (e.1.1, e.1.2, .lookUp rows e.2)

/-- Looking up rows leaves the positions and types of outputs as they are. -/
theorem map_lookUpParts (rows : Array PackedRow) (k : Nat) (pairs : List (Position × PinType)) :
    (lookUpParts rows k pairs).map (fun e => (e.1, e.2.1)) = pairs := by
  rw [lookUpParts, List.map_map]
  exact List.zipIdx_map_fst k pairs

theorem map_fst_lookUpParts (rows : Array PackedRow) (k : Nat)
    (pairs : List (Position × PinType)) :
    (lookUpParts rows k pairs).map Prod.fst = pairs.map Prod.fst := by
  have hpairs := congrArg (List.map Prod.fst) (map_lookUpParts rows k pairs)
  rwa [List.map_map] at hpairs

theorem makeInputs_cons (p : Position) (type : PinType) (rest : List (Position × PinType)) :
    makeInputs ((p, type) :: rest) =
      (InputPin.make p type).bind fun pin => (makeInputs rest).map (pin :: ·) := by
  rw [makeInputs]
  cases InputPin.make p type <;> rfl

theorem makeOutputs_cons (rows : Array PackedRow) (k : Nat) (p : Position) (type : PinType)
    (rest : List (Position × PinType)) :
    makeOutputs rows k ((p, type) :: rest) =
      (OutputPin.make p type (.lookUp rows k)).bind fun pin =>
        (makeOutputs rows (k + 1) rest).map (pin :: ·) := by
  rw [makeOutputs]
  cases OutputPin.make p type (.lookUp rows k) <;> rfl

theorem makeInputs_eq_ok_iff {pairs : List (Position × PinType)} {pins : List InputPin} :
    makeInputs pairs = .ok pins ↔ pins.map inputParts = pairs := by
  induction pairs generalizing pins with
  | nil => simp [makeInputs, eq_comm]
  | cons pair rest ih =>
    obtain ⟨p, type⟩ := pair
    simp only [makeInputs_cons, bind_eq_ok_iff, map_eq_ok_iff, InputPin.make_eq_ok_iff, ih]
    constructor
    · rintro ⟨pin, ⟨rfl, rfl⟩, more, rfl, rfl⟩
      rfl
    · intro h
      obtain ⟨pin, more, rfl, hparts, hrest⟩ := List.map_eq_cons_iff.1 h
      exact ⟨pin, Prod.mk.inj hparts, more, hrest, rfl⟩

theorem makeOutputs_eq_ok_iff {rows : Array PackedRow} {k : Nat}
    {pairs : List (Position × PinType)} {pins : List OutputPin} :
    makeOutputs rows k pairs = .ok pins ↔ pins.map outputParts = lookUpParts rows k pairs := by
  induction pairs generalizing k pins with
  | nil => simp [makeOutputs, lookUpParts, eq_comm]
  | cons pair rest ih =>
    obtain ⟨p, type⟩ := pair
    rw [lookUpParts, List.zipIdx_cons, List.map_cons, ← lookUpParts]
    simp only [makeOutputs_cons, bind_eq_ok_iff, map_eq_ok_iff, OutputPin.make_eq_ok_iff, ih]
    constructor
    · rintro ⟨pin, ⟨rfl, rfl, hbehaviour⟩, more, hmore, rfl⟩
      rw [List.map_cons, hmore, outputParts, hbehaviour]
    · intro h
      obtain ⟨pin, more, rfl, hparts, hrest⟩ := List.map_eq_cons_iff.1 h
      obtain ⟨hposition, hothers⟩ := Prod.mk.inj hparts
      exact ⟨pin, ⟨hposition, Prod.mk.inj hothers⟩, more, hrest, rfl⟩

/-- Inputs are made if every position takes its type. -/
theorem exists_makeInputs {pairs : List (Position × PinType)}
    (h : ∀ e ∈ pairs, e.1.takes e.2 = true) : ∃ pins, makeInputs pairs = .ok pins :=
  (exists_inputs h).imp fun _ => makeInputs_eq_ok_iff.2

/-- Outputs are made if every position takes its type. -/
theorem exists_makeOutputs {pairs : List (Position × PinType)}
    (h : ∀ e ∈ pairs, e.1.takes e.2 = true) (rows : Array PackedRow) (k : Nat) :
    ∃ pins, makeOutputs rows k pairs = .ok pins := by
  have hparts : ∀ e ∈ lookUpParts rows k pairs, e.1.takes e.2.1 = true :=
    List.forall_mem_map.2 fun _ he => h _ (List.fst_mem_of_mem_zipIdx he)
  exact (exists_outputs hparts).imp fun _ => makeOutputs_eq_ok_iff.2

/-- **The circuit of a record.**  Its pins are the used positions with their types, the table of the
record is accepted for them, and output `k` looks up output `k` of the rows. -/
theorem circuit_eq_ok_iff {r : Record} {d : Circuit} :
    r.circuit = .ok d ↔
      ∃ ins outs, typedPositions .input r.inputRemap r.inputTypes = .ok ins ∧
        typedPositions .output r.outputRemap r.outputTypes = .ok outs ∧
        checkTable ins.length outs.length r.table = .ok () ∧
        d.inputs.map inputParts = ins ∧
        d.outputs.map outputParts = lookUpParts r.table.toArray 0 outs := by
  simp only [circuit, do_eq_bind, inputs, outputs, bind_eq_ok_iff, Circuit.ofPins_eq_ok_iff,
    makeInputs_eq_ok_iff, makeOutputs_eq_ok_iff]
  constructor
  · rintro ⟨pins, ⟨ins, hins, hpins⟩, outs, houts, ⟨⟩, hcheck, outPins, houtPins, rfl, rfl⟩
    have hlen : d.inputs.length = ins.length := by rw [← hpins, List.length_map]
    exact ⟨ins, outs, hins, houts, hlen ▸ hcheck, hpins, houtPins⟩
  · rintro ⟨ins, outs, hins, houts, hcheck, hpins, houtPins⟩
    have hlen : d.inputs.length = ins.length := by rw [← hpins, List.length_map]
    exact ⟨d.inputs, ⟨ins, hins, hpins⟩, outs, houts, (), hlen ▸ hcheck, d.outputs, houtPins, rfl,
      rfl⟩

theorem map_fst_zip_sublist (ps : List Position) (remap : List UInt32) :
    ((ps.zip remap).map Prod.fst).Sublist ps := by
  induction ps generalizing remap with
  | nil => exact List.Sublist.refl _
  | cons p ps ih =>
    cases remap with
    | nil => exact List.nil_sublist _
    | cons order remap => exact (ih remap).cons_cons p

/-- The positions that a remap uses are distinct. -/
theorem nodup_usedPositions (remap : List UInt32) : (usedPositions remap).Nodup :=
  ((List.filter_sublist.map Prod.fst).trans
    (map_fst_zip_sublist Position.all remap)).nodup Position.nodup_all

theorem map_fst_of_typed {side : RecordSide} {codes : List UInt8} {ps : List Position}
    {pairs : List (Position × PinType)} (h : typed side codes ps = .ok pairs) :
    pairs.map Prod.fst = ps := by
  induction ps generalizing pairs with
  | nil =>
    cases h
    rfl
  | cons p ps ih =>
    rw [typed] at h
    split at h
    · cases h
    · obtain ⟨rest, hrest, rfl⟩ := map_eq_ok_iff.1 h
      rw [List.map_cons, ih hrest]

theorem nodup_of_typedPositions {side : RecordSide} {remap : List UInt32} {codes : List UInt8}
    {pairs : List (Position × PinType)} (h : typedPositions side remap codes = .ok pairs) :
    (pairs.map Prod.fst).Nodup := by
  rw [typedPositions] at h
  split at h
  · rw [map_fst_of_typed h]
    exact nodup_usedPositions remap
  · cases h

/-- The pins of a record make a circuit. -/
theorem exists_ofPins {r : Record} {ins outs : List (Position × PinType)} {inputs : List InputPin}
    {outputs : List OutputPin} (hins : typedPositions .input r.inputRemap r.inputTypes = .ok ins)
    (houts : typedPositions .output r.outputRemap r.outputTypes = .ok outs)
    (hinputs : makeInputs ins = .ok inputs)
    (houtputs : makeOutputs r.table.toArray 0 outs = .ok outputs) :
    ∃ d, Circuit.ofPins inputs outputs = .ok d := by
  rw [makeInputs_eq_ok_iff] at hinputs
  rw [makeOutputs_eq_ok_iff] at houtputs
  have hinPositions : inputs.map InputPin.position = ins.map Prod.fst := by
    rw [← hinputs, List.map_map]
    rfl
  have houtPositions : outputs.map OutputPin.position = outs.map Prod.fst := by
    rw [← map_fst_lookUpParts r.table.toArray 0 outs, ← houtputs, List.map_map]
    rfl
  exact ⟨⟨inputs, outputs, hinPositions ▸ nodup_of_typedPositions hins,
    houtPositions ▸ nodup_of_typedPositions houts⟩, Circuit.ofPins_eq_ok_iff.2 ⟨rfl, rfl⟩⟩

/-- A record has a circuit if its used positions have types that they take and its table is accepted
for them. -/
theorem exists_circuit {r : Record} {ins outs : List (Position × PinType)}
    (hins : typedPositions .input r.inputRemap r.inputTypes = .ok ins)
    (houts : typedPositions .output r.outputRemap r.outputTypes = .ok outs)
    (hcheck : checkTable ins.length outs.length r.table = .ok ())
    (hinTypes : ∀ e ∈ ins, e.1.takes e.2 = true) (houtTypes : ∀ e ∈ outs, e.1.takes e.2 = true) :
    ∃ d, r.circuit = .ok d ∧ d.inputs.map inputParts = ins ∧
      d.outputs.map outputParts = lookUpParts r.table.toArray 0 outs := by
  obtain ⟨inPins, hinPins⟩ := exists_makeInputs hinTypes
  obtain ⟨outPins, houtPins⟩ := exists_makeOutputs houtTypes r.table.toArray 0
  obtain ⟨d, hd⟩ := exists_ofPins hins houts hinPins houtPins
  obtain ⟨rfl, rfl⟩ := Circuit.ofPins_eq_ok_iff.1 hd
  rw [makeInputs_eq_ok_iff] at hinPins
  rw [makeOutputs_eq_ok_iff] at houtPins
  exact ⟨d, circuit_eq_ok_iff.2 ⟨ins, outs, hins, houts, hcheck, hinPins, houtPins⟩, hinPins,
    houtPins⟩

/-! ## Looking up rows -/

variable {r : Record} {d : Circuit}

/-- The table of a record is accepted for the pins of its circuit. -/
theorem checkTable_of_circuit (h : r.circuit = .ok d) :
    checkTable d.inputs.length d.outputs.length r.table = .ok () := by
  obtain ⟨ins, outs, -, -, hcheck, hins, houts⟩ := circuit_eq_ok_iff.1 h
  have hlength := congrArg List.length houts
  rw [List.length_map, lookUpParts, List.length_map, List.length_zipIdx] at hlength
  rwa [← hins, List.length_map, ← hlength] at hcheck

/-- The table of a record has a row for each assignment of the inputs of its circuit. -/
theorem length_table_of_circuit (h : r.circuit = .ok d) :
    r.table.length = Assignment.count d.inputs.length :=
  (checkTable_eq_ok_iff.1 (checkTable_of_circuit h)).1

/-- The output at place `k` of the circuit of a record looks up output `k` of the rows. -/
theorem behaviour_getElem_of_circuit (h : r.circuit = .ok d) {k : Nat}
    (hk : k < d.outputs.length) : d.outputs[k].behaviour = .lookUp r.table.toArray k := by
  obtain ⟨ins, outs, -, -, -, -, houts⟩ := circuit_eq_ok_iff.1 h
  have hlen : d.outputs.length = outs.length := by
    have hlen := congrArg List.length houts
    simpa [lookUpParts] using hlen
  have hget := congrArg (fun parts => parts[k]?) houts
  simp only [lookUpParts, List.getElem?_map, List.getElem?_eq_getElem hk, List.getElem?_zipIdx,
    List.getElem?_eq_getElem (hlen ▸ hk), Option.map_some, Option.some.injEq, outputParts,
    Nat.zero_add] at hget
  exact (Prod.mk.inj (Prod.mk.inj hget).2).2

/-- Every output of the circuit of a record looks up the rows of the record. -/
theorem exists_lookUp_of_circuit (h : r.circuit = .ok d) {pin : OutputPin}
    (hpin : pin ∈ d.outputs) : ∃ k, pin.behaviour = .lookUp r.table.toArray k := by
  obtain ⟨k, hk, rfl⟩ := List.getElem_of_mem hpin
  exact ⟨k, behaviour_getElem_of_circuit h hk⟩

/-- The outputs of the circuit of a record can be used with its inputs. -/
theorem check_of_circuit (h : r.circuit = .ok d) : d.check = .ok () := by
  rw [Circuit.check_eq_ok_iff]
  intro pin hpin
  obtain ⟨k, hk⟩ := exists_lookUp_of_circuit h hpin
  rw [OutputPin.accepts, hk, Behaviour.accepts, List.size_toArray, length_table_of_circuit h,
    beq_self_eq_true]

/-- The output at a place has its bit of the row that the assignment selects. -/
theorem outputAt?_of_circuit (h : r.circuit = .ok d) (a : Assignment) {k : Nat}
    (hk : k < d.outputPositions.length) :
    d.outputAt? a d.outputPositions[k] = (r.table[a.index]?).map fun row => row.output k := by
  have hk' : k < d.outputs.length := by simpa using hk
  have hposition : d.outputPositions[k] = d.outputs[k].position := List.getElem_map _
  rw [hposition, Circuit.outputAt?_of_mem (List.getElem_mem hk'), OutputPin.value?,
    behaviour_getElem_of_circuit h hk', Behaviour.value?, List.getElem?_toArray]

/-- Looking up rows gives every output a value at every assignment. -/
theorem isTotal_of_circuit (h : r.circuit = .ok d) : d.IsTotal := by
  intro a hlen pin hpin
  obtain ⟨k, hk⟩ := exists_lookUp_of_circuit h hpin
  have hlt : a.index < r.table.length := by
    rw [length_table_of_circuit h]
    exact Assignment.index_lt_of_length hlen
  rw [OutputPin.value?, hk, Behaviour.value?, List.getElem?_toArray, List.getElem?_eq_getElem hlt]
  rfl

/-- The outputs at an assignment are the bits of the row that the assignment selects. -/
theorem values?_of_circuit (h : r.circuit = .ok d) {i : Nat} {row : PackedRow}
    (hrow : r.table[i]? = some row) :
    d.values? (Assignment.ofIndex d.inputs.length i) = some (row.unpack d.outputs.length) := by
  have hlt : i < Assignment.count d.inputs.length := by
    rw [← length_table_of_circuit h]
    exact (List.getElem?_eq_some_iff.1 hrow).1
  rw [Circuit.values?, if_pos (Assignment.length_ofIndex _ _), mapM_eq_some_iff]
  apply List.ext_getElem
  · simp
  · intro k hk _
    have hk' : k < d.outputs.length := by simpa using hk
    simp only [List.getElem_map, OutputPin.value?, behaviour_getElem_of_circuit h hk',
      Behaviour.value?, Assignment.index_ofIndex_of_lt hlt, List.getElem?_toArray, hrow,
      Option.map_some, PackedRow.unpack, List.getElem_range]

/-- The truth table of the circuit of a record has an entry for each row of the record. -/
theorem entries?_of_circuit (h : r.circuit = .ok d) :
    d.entries? = some (r.table.mapIdx fun i row =>
      ⟨Assignment.ofIndex d.inputs.length i, row.unpack d.outputs.length⟩) := by
  rw [Circuit.entries?_eq_some_iff]
  apply List.ext_getElem
  · simp [length_table_of_circuit h]
  · intro i hi hi'
    have hlt : i < r.table.length := by simpa using hi'
    have hvalues := values?_of_circuit h (List.getElem?_eq_getElem hlt)
    simp [Assignment.getElem_all, Circuit.entry?, hvalues]

/-- The table of a record is decoded to the truth table of its circuit. -/
theorem exists_truthTable (h : r.circuit = .ok d) :
    ∃ t, TruthTable.decode d r.table = .ok t ∧ TruthTable.ofCircuit? d = some t := by
  have hentries := entries?_of_circuit h
  refine ⟨⟨d.inputPositions, d.outputPositions, _⟩, ?_, congrArg (Option.map _) hentries⟩
  rw [TruthTable.decode, decodeEntries, checkTable_of_circuit h]
  rfl

end Record

end VoxelLogic
