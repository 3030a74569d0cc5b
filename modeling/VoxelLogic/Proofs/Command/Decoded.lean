import VoxelLogic.Command.Directory
import VoxelLogic.Proofs.Command.Arguments
import VoxelLogic.Proofs.Record.Shape
import VoxelLogic.Proofs.Record.Written

/-!
# Decoding and recompiling

The truth table of a record file is printed in two ways: `decode` unpacks the rows of the record,
`compile --print` evaluates the circuit of the record at every assignment.  Both ways refuse the
same files for the same reasons and print the same table.

* `FirstReport.isAbrupt_eq_false`: no report about a record ends the program without a message.
* `Command.runDecode_of_json`, `Command.runCompile_of_json`: how each of the two tasks ends.
* `decode_eq_compile_print`: both have the same outcome.
-/

namespace VoxelLogic

/-! ## Errors of a record file -/

/-- A report about a record does not end the program for want of memory. -/
theorem FirstReport.isAbrupt_eq_false {r : Record} {e : Error} {qs : List Condition}
    (h : FirstReport r e qs) : e.isAbrupt = false := by
  induction h with
  | later _ _ ih => exact ih
  | @here q _ _ hreports =>
    cases q with
    | remapLength side =>
      obtain rfl := hreports
      rfl
    | typeCodes side =>
      obtain ⟨i, -, rfl⟩ := hreports
      rfl
    | stateCodes side =>
      obtain ⟨p, code, -, -, rfl⟩ := hreports
      rfl
    | rowCount =>
      obtain rfl := hreports
      rfl
    | rowWidth =>
      obtain ⟨i, row, -, -, rfl⟩ := hreports
      rfl

namespace Command

variable {files : Files} {file : String} {e : Error} {r : Record}

theorem isAbrupt_of_readRecord (h : readRecord files file = .error e) : e.isAbrupt = false := by
  rw [readRecord] at h
  split at h
  · cases h
    rfl
  · cases h
    rfl
  · split at h
    · cases h
      rfl
    · cases h

theorem isAbrupt_of_json (h : (readRecord files file).bind Record.circuit = .error e) :
    e.isAbrupt = false := by
  rcases bind_eq_error_iff.1 h with hread | ⟨r, -, hcircuit⟩
  · exact isAbrupt_of_readRecord hread
  · exact ((Record.checks_circuit r).error_iff e |>.1 hcircuit).isAbrupt_eq_false

/-- A record file is refused with a message. -/
theorem ofError_of_json (h : (readRecord files file).bind Record.circuit = .error e) :
    Ending.ofError e = .failure e := by
  rw [Ending.ofError, isAbrupt_of_json h]
  rfl

/-! ## Both tasks -/

/-- A circuit file with the extension of records holds a record. -/
theorem readCircuit_of_json (hextension : Path.extension? file = some "json") :
    readCircuit files file = (readRecord files file).bind Record.circuit := by
  have hpins : "json" ≠ "pins" := by decide
  rw [readCircuit, hextension]
  simp only [if_neg hpins, if_true]

theorem readRecord_of_content (h : files.source file = .content (Text.encode r.toJson)) :
    readRecord files file = .ok r := by
  rw [readRecord, h]
  simp only [Record.ofJson_toJson]

/-- Decoding a record file prints its truth table or reports why it is refused. -/
theorem runDecode_of_json (files : Files) (file : String) :
    (∀ e, (readRecord files file).bind Record.circuit = .error e →
      runDecode files file none = .ended "" (.failure e)) ∧
    ∀ r d t, readRecord files file = .ok r → r.circuit = .ok d →
      TruthTable.decode d r.table = .ok t →
      runDecode files file none = .ended t.render .success := by
  constructor
  · intro e he
    rw [← ofError_of_json he]
    rcases bind_eq_error_iff.1 he with hread | ⟨r, hread, hcircuit⟩
    · simp only [runDecode, hread]
    · simp only [runDecode, hread, hcircuit]
  · intro r d t hread hcircuit ht
    simp only [runDecode, hread, hcircuit, ht, finish]

/-- Compiling a record file prints its truth table or reports why it is refused. -/
theorem runCompile_of_json (files : Files) (hextension : Path.extension? file = some "json") :
    (∀ e, (readRecord files file).bind Record.circuit = .error e →
      runCompile files file true none = .ended "" (.failure e)) ∧
    ∀ r d t, readRecord files file = .ok r → r.circuit = .ok d →
      TruthTable.ofCircuit? d = some t →
      runCompile files file true none = .ended t.render .success := by
  constructor
  · intro e he
    simp only [runCompile, readCircuit_of_json hextension, he, ofError_of_json he]
  · intro r d t hrecord hcircuit ht
    have hfound : (readRecord files file).bind Record.circuit = .ok d :=
      bind_eq_ok_iff.2 ⟨r, hrecord, hcircuit⟩
    simp only [runCompile, readCircuit_of_json hextension, hfound,
      Record.check_of_circuit hcircuit, Record.compile?_of_circuit hcircuit, tableText?, if_true,
      ht, Option.map_some, finish]

end Command

open Command

/-- **Decoding and recompiling.**  For a record file of any content, which may not be there at all,
decoding it and compiling it with its table printed have the same outcome.  If the file holds no
record or a record that is refused, that is the error, and nothing is printed.  Otherwise the
circuit of the record passes its check and can be compiled, its rows are decoded, without an error,
to the truth table that evaluating the circuit gives, and that table is printed. -/
theorem decode_eq_compile_print (files : Files) {file : String}
    (hextension : Path.extension? file = some "json") (hdash : file.toList.head? ≠ some '-') :
    runArguments files ["decode", file] = runArguments files ["compile", file, "--print"] ∧
    (∀ e, (readRecord files file).bind Record.circuit = .error e →
      runArguments files ["decode", file] = .ended "" (.failure e)) ∧
    ∀ r d, readRecord files file = .ok r → r.circuit = .ok d →
      d.check = .ok () ∧ (∃ table, d.compile? = some table) ∧
      ∃ t, TruthTable.decode d r.table = .ok t ∧ TruthTable.ofCircuit? d = some t ∧
        runArguments files ["decode", file] = .ended t.render .success := by
  have hempty : file ≠ "" := by
    rintro rfl
    cases hextension
  have hdecode : runArguments files ["decode", file] = runDecode files file none := by
    rw [runArguments, Request.ofArguments_decode hempty hdash]
    rfl
  have hcompile : runArguments files ["compile", file, "--print"] =
      runCompile files file true none := by
    rw [runArguments, Request.ofArguments_compile_print hempty hdash]
    rfl
  rw [hdecode, hcompile]
  obtain ⟨hrefused, hprinted⟩ := runDecode_of_json files file
  obtain ⟨hrefused', hprinted'⟩ := runCompile_of_json files hextension
  refine ⟨?_, hrefused, fun r d hread hcircuit => ?_⟩
  · cases hload : (readRecord files file).bind Record.circuit with
    | error e => rw [hrefused e hload, hrefused' e hload]
    | ok d =>
      obtain ⟨r, hread, hcircuit⟩ := bind_eq_ok_iff.1 hload
      obtain ⟨t, hdecoded, ht⟩ := Record.exists_truthTable hcircuit
      rw [hprinted r d t hread hcircuit hdecoded, hprinted' r d t hread hcircuit ht]
  · obtain ⟨t, hdecoded, ht⟩ := Record.exists_truthTable hcircuit
    exact ⟨Record.check_of_circuit hcircuit, ⟨_, Record.compile?_of_circuit hcircuit⟩, t, hdecoded,
      ht, hprinted r d t hread hcircuit hdecoded⟩

/-- A directory with a record whose sentinels are set and a record that has no rows. -/
def shelf : Directory where
  entries := [("f.json", Text.encode unruly.toJson), ("g.json", Text.encode Record.empty.toJson)]

/-- The first of them is printed, and the second is refused. -/
theorem decode_eq_compile_print_shelf :
    runArguments shelf.files ["compile", "f.json", "--print"] =
        .ended ("FD  | FL  || FLD\n----+-----++----\n" ++
          "0   | 0   || 0  \n0   | 1   || 1  \n1   | 0   || 1  \n1   | 1   || 0  \n") .success ∧
      runArguments shelf.files ["compile", "g.json", "--print"] =
        .ended "" (.failure (.tableSize 1 0)) := by
  have hunruly : Path.extension? "f.json" = some "json" ∧ "f.json".toList.head? ≠ some '-' := by
    decide
  have hempty : Path.extension? "g.json" = some "json" ∧ "g.json".toList.head? ≠ some '-' := by
    decide
  have hreadUnruly : readRecord shelf.files "f.json" = .ok unruly := readRecord_of_content rfl
  have hreadEmpty : readRecord shelf.files "g.json" = .ok .empty := readRecord_of_content rfl
  obtain ⟨hsame, -, hprinted⟩ := decode_eq_compile_print shelf.files hunruly.1 hunruly.2
  obtain ⟨hsame', hrefused, -⟩ := decode_eq_compile_print shelf.files hempty.1 hempty.2
  constructor
  · obtain ⟨d, found, hcircuit, hfound, htext⟩ : ∃ d found, unruly.circuit = .ok d ∧
        TruthTable.decode d unruly.table = .ok found ∧ found.render =
          "FD  | FL  || FLD\n----+-----++----\n" ++
            "0   | 0   || 0  \n0   | 1   || 1  \n1   | 0   || 1  \n1   | 1   || 0  \n" :=
      ⟨_, _, rfl, rfl, by decide⟩
    obtain ⟨-, -, t, ht, -, hrun⟩ := hprinted unruly d hreadUnruly hcircuit
    obtain rfl := Except.ok.inj (hfound.symm.trans ht)
    rw [← hsame, hrun, htext]
  · rw [← hsame', hrefused (.tableSize 1 0)]
    rw [hreadEmpty]
    rfl

end VoxelLogic
