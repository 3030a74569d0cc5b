import VoxelLogic.Proofs.Command.Decoded
import VoxelLogic.Proofs.PinFile.Described

/-!
# Circuits through all file formats

A circuit file that can be compiled is compiled to a record file, the record file is decoded to a
pin file, and both are compiled to the same record file again.

* `Directory.run`, `Directory.left`, `Directory.after`: running the program in a directory.
* `Command.Compiles`: a file holds a circuit with a given record.
* `compiles_of_json`, `runDecode_of_compiles`: a record file holds a circuit with the record in it,
  and so does the pin file that it is decoded to.
* `Directory.run_compile`, `Directory.run_decode`: what runs write.
* `compile_decode_compile`: the whole cycle.
-/

namespace VoxelLogic

/-! ## Directories -/

namespace Directory

/-- The outcome of running the program with some arguments. -/
def run (d : Directory) (arguments : List String) : Outcome :=
  Command.runArguments d.files arguments

/-- The directory that an outcome leaves. -/
def left (d : Directory) (o : Outcome) : Directory where
  entries := (d.changes o).map (fun (name, content) => (name, Text.encode content)) ++ d.entries

/-- The directory after the program was run. -/
def after (d : Directory) (arguments : List String) : Directory := d.left (d.run arguments)

/-- The content of a file. -/
def content? (d : Directory) (name : String) : Option (List UInt8) := d.entries.lookup name

variable {d : Directory} {o : Outcome} {arguments : List String} {path name content : String}

theorem source_of_content? (hplace : place path = .file name) {bytes : List UInt8}
    (h : d.content? name = some bytes) : d.files.source path = .content bytes := by
  rw [content?] at h
  simp only [files, hplace, h]

/-- A file that was written holds what was written. -/
theorem content?_left (h : o.written = some (path, content)) (hplace : place path = .file name) :
    (d.left o).content? name = some (Text.encode content) := by
  rw [content?, left, changes, h]
  simp only [hplace]
  split
  · next hsame => exact hsame
  · exact List.lookup_cons_self

/-- The other files are as they were. -/
theorem content?_left_of_ne (h : o.written = some (path, content))
    (hplace : place path = .file name) {other : String} (hne : other ≠ name) :
    (d.left o).content? other = d.content? other := by
  rw [content?, left, changes, h]
  simp only [hplace]
  split
  · rfl
  · rw [List.map_cons, List.map_nil, List.singleton_append, List.lookup_cons,
      beq_false_of_ne hne]
    rfl

/-- Without a file to be written the directory is as it was. -/
theorem left_eq_self (h : o.written = none) : d.left o = d := by
  rw [left, changes, h]
  rfl

/-- A file changes only if it was written. -/
theorem exists_written_of_content?_left_ne (h : (d.left o).content? name ≠ d.content? name) :
    ∃ path content, o.written = some (path, content) ∧ place path = .file name := by
  cases hwritten : o.written with
  | none =>
    rw [left_eq_self hwritten] at h
    exact absurd rfl h
  | some written =>
    obtain ⟨path, content⟩ := written
    refine ⟨path, content, rfl, ?_⟩
    cases hplace : place path with
    | file other =>
      by_cases hname : name = other
      · rw [hname]
      · exact absurd (content?_left_of_ne hwritten hplace hname) h
    | folder | nowhere =>
      rw [left, changes, hwritten] at h
      simp only [hplace] at h
      exact absurd rfl h

/-- A run that writes a file leaves it with what was written. -/
theorem content?_after (h : (d.run arguments).written = some (path, content))
    (hplace : place path = .file name) :
    (d.after arguments).content? name = some (Text.encode content) :=
  content?_left h hplace

/-- A run that writes a file leaves the others as they are. -/
theorem content?_after_of_ne (h : (d.run arguments).written = some (path, content))
    (hplace : place path = .file name) {other : String} (hne : other ≠ name) :
    (d.after arguments).content? other = d.content? other :=
  content?_left_of_ne h hplace hne

end Directory

/-! ## Compiling -/

namespace Command

variable {files : Files} {file output : String} {c : Circuit} {table : PackedTable} {r : Record}

/-- A file holds a circuit that can be compiled and has a given record. -/
def Compiles (files : Files) (file : String) (r : Record) : Prop :=
  ∃ c table, readCircuit files file = .ok c ∧ c.check = .ok () ∧ c.compile? = some table ∧
    r = Record.stored c table

/-- An error is told by the exit code. -/
theorem code_ofError_ne (e : Error) : (Ending.ofError e).code ≠ 0 := by
  rw [Ending.ofError]
  split
  · show (101 : UInt8) ≠ 0
    decide
  · show (1 : UInt8) ≠ 0
    decide

/-- A file whose compilation exits with zero holds a circuit that can be compiled. -/
theorem exists_compiles_of_runCompile {print : Bool} {target : Option String}
    (h : (runCompile files file print target).ending.code = 0) :
    ∃ r, Compiles files file r := by
  rw [runCompile] at h
  split at h
  · exact absurd h (code_ofError_ne _)
  · next c hc =>
    split at h
    · exact absurd h (code_ofError_ne _)
    · next hcheck =>
      split at h
      · cases h
      · next table htable => exact ⟨_, c, table, hc, hcheck, htable, rfl⟩

/-- Compiling a file to a record file writes the record. -/
theorem runCompile_of_compiles (h : Compiles files file r)
    (hextension : Path.extension? output = some "json")
    (hwritable : files.writable output = true) :
    ∃ printed, runCompile files file false (some output) =
      ⟨printed, some (output, r.toJson), .success⟩ := by
  obtain ⟨c, table, hc, hcheck, htable, rfl⟩ := h
  have hrecord : Record.ofTable c table = .ok (Record.stored c table) :=
    Record.ofTable_eq_ok_iff.2 ⟨Circuit.checkTable_of_compile? htable, rfl⟩
  have htext : compiledText output c table = .ok (some (Record.stored c table).toJson) := by
    rw [compiledText, if_pos hextension, hrecord]
    rfl
  refine ⟨packedText table c.outputs.length, ?_⟩
  simp only [runCompile, hc, hcheck, htable, tableText?, Bool.false_eq_true, if_false, finish,
    htext, hwritable, if_true]

/-! ## Record files -/

/-- A record that was made of a compiled circuit has a circuit of the same module. -/
theorem exists_circuit_of_compiles (h : Compiles files file r) :
    ∃ d s, r.circuit = .ok d ∧ d.compile? = some s ∧ r = Record.stored d s := by
  obtain ⟨c, table, -, -, htable, rfl⟩ := h
  have hcheck := Circuit.checkTable_of_compile? htable
  obtain ⟨d, hd, -⟩ := Record.exists_circuit_stored hcheck
  obtain ⟨s, hs⟩ := Circuit.isTotal_iff.1 (Record.isTotal_of_circuit hd)
  have hsame := Record.sameModule_stored htable hd
  exact ⟨d, s, hd, hs, Record.stored_congr htable hs hsame⟩

/-- The file of a record that was made of a compiled circuit compiles to the record. -/
theorem compiles_of_json {first : Files} {start : String} (h : Compiles first start r)
    (hextension : Path.extension? file = some "json")
    (hsource : files.source file = .content (Text.encode r.toJson)) : Compiles files file r := by
  obtain ⟨d, s, hd, hs, hr⟩ := exists_circuit_of_compiles h
  refine ⟨d, s, ?_, Record.check_of_circuit hd, hs, hr⟩
  rw [readCircuit_of_json hextension, readRecord_of_content hsource]
  exact hd

/-! ## Pin files -/

/-- The outputs of the circuit of a record are given by no formula. -/
theorem isReadable_of_circuit {d : Circuit} (h : r.circuit = .ok d) :
    ∀ pin ∈ d.outputs, pin.isReadable d.inputs.length = true := by
  intro pin hpin
  obtain ⟨k, hk⟩ := Record.exists_lookUp_of_circuit h hpin
  rw [OutputPin.isReadable, hk]
  rfl

theorem masksReadBack_of_circuit {d : Circuit} (h : r.circuit = .ok d) :
    ∀ pin ∈ d.outputs, pin.MasksReadBack := by
  intro pin hpin f hf
  obtain ⟨k, hk⟩ := Record.exists_lookUp_of_circuit h hpin
  rw [hk] at hf
  cases hf

/-- The pin file that a record file is decoded to compiles to the record. -/
theorem runDecode_of_compiles {first : Files} {start : String} (h : Compiles first start r)
    (hsource : files.source file = .content (Text.encode r.toJson))
    (hextension : Path.extension? output = some "pins")
    (hwritable : files.writable output = true) :
    ∃ printed text, runDecode files file (some output) =
        ⟨printed, some (output, text), .success⟩ ∧
      ∀ next : Files, next.source output = .content (Text.encode text) →
        Compiles next output r := by
  obtain ⟨d, s, hd, hs, hr⟩ := exists_circuit_of_compiles h
  obtain ⟨text, e, hwrite, hread, hcheck, htotal, hsame⟩ :=
    exists_read_write? (Record.isTotal_of_circuit hd) (masksReadBack_of_circuit hd)
      (isReadable_of_circuit hd)
  obtain ⟨table, htable, -⟩ := Record.exists_truthTable hd
  have htext : circuitText output d = .ok (some text) := by
    rw [circuitText, hextension]
    simp only [if_true, hwrite]
  refine ⟨table.render, text, ?_, fun next hnext => ?_⟩
  · simp only [runDecode, readRecord_of_content hsource, hd, htable, finish, htext, hwritable,
      if_true]
  · obtain ⟨u, hu⟩ := Circuit.isTotal_iff.1 htotal
    refine ⟨e, u, ?_, hcheck, hu, ?_⟩
    · rw [readCircuit, hextension]
      simp only [if_true, readPins, hnext, hread]
    · rw [hr, Record.stored_congr hu hs hsame]

end Command

/-! ## Runs in a directory -/

namespace Directory

open Command

variable {d : Directory} {arguments : List String} {file output : String} {r : Record}

/-- A run that compiles a file with success has found a circuit in it. -/
theorem exists_compiles_of_run
    (hhelp : Request.ofArguments ["compile", file, "-o", output] ≠ .help)
    (h : (d.run ["compile", file, "-o", output]).ending.code = 0) :
    Request.ofArguments ["compile", file, "-o", output] = .run (.compile file false (some output)) ∧
      ∃ r, Compiles d.files file r := by
  rw [run, runArguments] at h
  split at h
  · next command hcommand =>
    obtain rfl := Request.command_of_ofArguments_compile hcommand
    exact ⟨hcommand, exists_compiles_of_runCompile h⟩
  · next hrequest => exact absurd hrequest hhelp
  · cases h

/-- A run that compiles a file to a record file. -/
theorem run_compile (h : Compiles d.files file r)
    (hrequest : Request.ofArguments arguments = .run (.compile file false (some output)))
    (hplace : place output = .file output) (hextension : Path.extension? output = some "json") :
    (d.run arguments).ending.code = 0 ∧
      (d.run arguments).written = some (output, r.toJson) := by
  have hwritable : d.files.writable output = true := by simp only [files, hplace]
  obtain ⟨printed, hrun⟩ := runCompile_of_compiles h hextension hwritable
  have houtcome : d.run arguments = ⟨printed, some (output, r.toJson), .success⟩ := by
    rw [run, runArguments, hrequest]
    exact hrun
  rw [houtcome]
  exact ⟨rfl, rfl⟩

/-- A run that decodes a record file to a pin file. -/
theorem run_decode {first : Files} {start : String} (h : Compiles first start r)
    (hsource : d.files.source file = .content (Text.encode r.toJson))
    (hrequest : Request.ofArguments arguments = .run (.decode file (some output)))
    (hplace : place output = .file output) (hextension : Path.extension? output = some "pins") :
    ∃ text, (d.run arguments).ending.code = 0 ∧
      (d.run arguments).written = some (output, text) ∧
      ∀ next : Files, next.source output = .content (Text.encode text) →
        Compiles next output r := by
  have hwritable : d.files.writable output = true := by simp only [files, hplace]
  obtain ⟨printed, text, hrun, hnext⟩ := runDecode_of_compiles h hsource hextension hwritable
  have houtcome : d.run arguments = ⟨printed, some (output, text), .success⟩ := by
    rw [run, runArguments, hrequest]
    exact hrun
  rw [houtcome]
  exact ⟨text, rfl, rfl, hnext⟩

end Directory

/-- **Circuits through all file formats.**  If the compilation of a file of any content to a record
file exits with zero, and not because an argument asked for help, then the record file compiles to a
file of the same bytes and is decoded to a pin file, which compiles to a file of the same bytes
again. -/
theorem compile_decode_compile (d : Directory) (file : String)
    (hhelp : Request.ofArguments ["compile", file, "-o", "a.json"] ≠ .help)
    (h : (d.run ["compile", file, "-o", "a.json"]).ending.code = 0) :
    let d₁ := d.after ["compile", file, "-o", "a.json"]
    let d₂ := d₁.after ["compile", "a.json", "-o", "b.json"]
    let d₃ := d₂.after ["decode", "a.json", "-o", "c.pins"]
    let d₄ := d₃.after ["compile", "c.pins", "-o", "d.json"]
    ∃ bytes, d₁.content? "a.json" = some bytes ∧
      (d₁.run ["compile", "a.json", "-o", "b.json"]).ending.code = 0 ∧
      d₂.content? "b.json" = some bytes ∧
      (d₂.run ["decode", "a.json", "-o", "c.pins"]).ending.code = 0 ∧
      (d₃.run ["compile", "c.pins", "-o", "d.json"]).ending.code = 0 ∧
      d₄.content? "d.json" = some bytes := by
  intro d₁ d₂ d₃ d₄
  have ha : Directory.place "a.json" = .file "a.json" := rfl
  have hb : Directory.place "b.json" = .file "b.json" := rfl
  have hc : Directory.place "c.pins" = .file "c.pins" := rfl
  have hd : Directory.place "d.json" = .file "d.json" := rfl
  have hcompileRecord : Request.ofArguments ["compile", "a.json", "-o", "b.json"] =
      .run (.compile "a.json" false (some "b.json")) := rfl
  have hdecode : Request.ofArguments ["decode", "a.json", "-o", "c.pins"] =
      .run (.decode "a.json" (some "c.pins")) := rfl
  have hcompilePins : Request.ofArguments ["compile", "c.pins", "-o", "d.json"] =
      .run (.compile "c.pins" false (some "d.json")) := rfl
  obtain ⟨hrequest, r, hr⟩ := Directory.exists_compiles_of_run hhelp h
  -- Every record file on the way holds `r`, and the pin file holds a circuit that is stored as `r`.
  obtain ⟨-, hwritten₁⟩ := Directory.run_compile hr hrequest ha rfl
  have ha₁ : d₁.content? "a.json" = some (Text.encode r.toJson) :=
    Directory.content?_after hwritten₁ ha
  have hcompiles₁ : Command.Compiles d₁.files "a.json" r :=
    Command.compiles_of_json hr rfl (Directory.source_of_content? ha ha₁)
  obtain ⟨hsuccess₂, hwritten₂⟩ := Directory.run_compile hcompiles₁ hcompileRecord hb rfl
  have hb₂ : d₂.content? "b.json" = some (Text.encode r.toJson) :=
    Directory.content?_after hwritten₂ hb
  have ha₂ : d₂.content? "a.json" = some (Text.encode r.toJson) := by
    rw [← ha₁]
    exact Directory.content?_after_of_ne hwritten₂ hb (by decide)
  obtain ⟨text, hsuccess₃, hwritten₃, hnext⟩ :=
    Directory.run_decode hr (Directory.source_of_content? ha ha₂) hdecode hc rfl
  have hc₃ : d₃.content? "c.pins" = some (Text.encode text) :=
    Directory.content?_after hwritten₃ hc
  have hcompiles₃ : Command.Compiles d₃.files "c.pins" r :=
    hnext d₃.files (Directory.source_of_content? hc hc₃)
  obtain ⟨hsuccess₄, hwritten₄⟩ := Directory.run_compile hcompiles₃ hcompilePins hd rfl
  exact ⟨_, ha₁, hsuccess₂, hb₂, hsuccess₃, hsuccess₄, Directory.content?_after hwritten₄ hd⟩

/-- A directory with a pin file whose inputs are not in the order of the catalog and whose output is
none of the forms that a record is decoded to. -/
def bench : Directory where
  entries := [("x.pins", Text.encode ("# parity\nINPUT(S2)\nINPUT(FLT, 5)\n" ++
    "OUTPUT(S1, 0) = XOR(S2, FLT, vdd)\n"))]

/-- The file goes through all formats. -/
theorem compile_decode_compile_bench :
    Request.ofArguments ["compile", "x.pins", "-o", "a.json"] ≠ .help ∧
    (bench.run ["compile", "x.pins", "-o", "a.json"]).ending.code = 0 ∧
    ∃ bytes, (bench.after ["compile", "x.pins", "-o", "a.json"]).content? "a.json" = some bytes ∧
      ((((bench.after ["compile", "x.pins", "-o", "a.json"]).after
        ["compile", "a.json", "-o", "b.json"]).after
        ["decode", "a.json", "-o", "c.pins"]).after
        ["compile", "c.pins", "-o", "d.json"]).content? "d.json" = some bytes := by
  have hhelp : Request.ofArguments ["compile", "x.pins", "-o", "a.json"] ≠ .help := by decide
  have hcode : (bench.run ["compile", "x.pins", "-o", "a.json"]).ending.code = 0 := by
    decide +kernel
  obtain ⟨bytes, ha, -, -, -, -, hd⟩ := compile_decode_compile bench "x.pins" hhelp hcode
  exact ⟨hhelp, hcode, bytes, ha, hd⟩

end VoxelLogic
