import VoxelLogic.Proofs.Command.Cycle
import VoxelLogic.Proofs.PackedRow.Numeral
import VoxelLogic.Proofs.Text.Numeral
import VoxelLogic.Proofs.TruthTable.Inverse
import VoxelLogic.Proofs.TruthTable.Printed

/-!
# Packed rows and truth tables as they are printed

A circuit is compiled once, and its table is printed as packed rows or, on demand, as a truth table.
Both texts have a line for each assignment, and the lines of an assignment show the same outputs: as
the digits of a numeral, from the back and behind the sentinel, or as cells.

* `packedLine`, `splitOn_packedText`: the lines of packed rows.
* `ShowsSame`: the two lines of an assignment.
* `isBinary_assignment`, `toList_binary_pack`: the numerals of an assignment and of stored outputs.
* `showsSame_entry`: the lines that an entry is printed as.
* `exists_compiled_of_runArguments`: what both runs print.
* `printed_forms_agree`: both texts.
-/

namespace VoxelLogic.Command

open PackedRow TruthTable

/-! ## The lines of packed rows -/

/-- The line of a packed row. -/
def packedLine (outputs i : Nat) (row : PackedRow) : String :=
  toString i ++ ": " ++ row.binary (width outputs)

theorem isDigit_of_mem_binary {row : PackedRow} {digits : Nat} {c : Char}
    (h : c ∈ (row.binary digits).toList) : c.isDigit = true := by
  rw [binary, String.toList_ofList, List.mem_append] at h
  rcases h with h | h
  · rw [List.eq_of_mem_replicate h]
    rfl
  · exact Nat.isDigit_of_mem_toDigits (by decide) (by decide) h

theorem newline_notMem_packedLine (outputs i : Nat) (row : PackedRow) :
    '\n' ∉ (packedLine outputs i row).toList := by
  have hdigit : '\n'.isDigit = false := rfl
  rw [packedLine, String.toList_append, String.toList_append, List.mem_append, List.mem_append,
    not_or, not_or]
  refine ⟨⟨fun h => ?_, by decide⟩, fun h => ?_⟩
  · exact Bool.false_ne_true (hdigit.symm.trans (Text.isDigit_of_mem_toString h))
  · exact Bool.false_ne_true (hdigit.symm.trans (isDigit_of_mem_binary h))

/-- The packed rows of a table are cut into their lines, and nothing follows the last of them. -/
theorem splitOn_packedText (table : PackedTable) (outputs : Nat) :
    (packedText table outputs).toList.splitOn '\n' =
      (table.mapIdx (packedLine outputs)).map String.toList ++ [[]] := by
  have htext : packedText table outputs =
      String.join ((table.mapIdx (packedLine outputs)).map (· ++ "\n")) := by
    rw [packedText]
    congr 1
    apply List.ext_getElem
    · simp only [List.length_mapIdx, List.length_map]
    · intro i h₁ h₂
      rw [List.getElem_map, List.getElem_mapIdx, List.getElem_mapIdx]
      rfl
  rw [htext, Text.splitOn_join]
  intro line hline
  obtain ⟨i, hi, rfl⟩ := List.mem_mapIdx.1 hline
  exact newline_notMem_packedLine outputs i table[i]

/-! ## The lines of an assignment -/

/-- A line of a packed row and a line of a truth table show row `i`, the first one by a numeral that
ends with the sentinel, and the second one by the same outputs next to `i` in binary. -/
def ShowsSame (inputs outputs i : Nat) (row : PackedRow) (packed entry : String) : Prop :=
  ∃ numeral place : List Char,
    packed = toString i ++ ": " ++ String.ofList numeral ∧
    IsBinary numeral (outputs + 1) row.toNat ∧ numeral.getLast? = some '0' ∧
    IsBinary place inputs i ∧
    entry = cellLine (place.map String.singleton) (numeral.reverse.tail.map String.singleton)

/-- A value is shown by its digit. -/
theorem map_bitText (bits : List Bool) :
    bits.map bitText = (bits.map bitDigit).map String.singleton := by
  rw [List.map_map]
  refine List.map_congr_left fun b _ => ?_
  cases b
  · rfl
  · rfl

/-- The row of an assignment is the number of its values from the back. -/
theorem index_eq_ofBits_reverse (a : Assignment) : a.index = ofBits a.reverse := by
  induction a using List.reverseRecOn with
  | nil => rfl
  | append_singleton a b ih =>
    rw [Assignment.index_append_singleton, ih, List.reverse_append, List.reverse_singleton,
      List.singleton_append, ofBits_cons, Nat.add_comm]

/-- An assignment shows its row in binary. -/
theorem isBinary_assignment (a : Assignment) : IsBinary (a.map bitDigit) a.length a.index := by
  have hbits := isBinary_bits a.reverse
  rwa [← index_eq_ofBits_reverse, List.length_reverse, List.map_reverse, List.reverse_reverse]
    at hbits

/-- The numeral of stored outputs shows the outputs from the back, and then the sentinel. -/
theorem toList_binary_pack {bits : List Bool} (h : bits.length < 64) :
    ((pack bits).binary (width bits.length)).toList =
      ((false :: bits).map bitDigit).reverse := by
  have hfits := fits_iff_toNat_lt.1 (fits_pack h (Nat.le_refl _))
  rw [toList_binary_width hfits, sentinel_pack, unpack_pack h]

/-- An entry and its packed row are printed as lines that show the same. -/
theorem showsSame_entry (e : Entry) (h : e.outputs.length < 64) :
    ShowsSame e.assignment.length e.outputs.length e.assignment.index (pack e.outputs)
      (packedLine e.outputs.length e.assignment.index (pack e.outputs)) (entryLine e) := by
  have hnumeral := toList_binary_pack h
  have hfits := fits_iff_toNat_lt.1 (fits_pack h (Nat.le_refl e.outputs.length))
  refine ⟨_, _, ?_, isBinary_binary (Nat.le_add_left 1 _) hfits, ?_,
    isBinary_assignment e.assignment, ?_⟩
  · rw [String.ofList_toList]
    rfl
  · rw [← width, hnumeral, List.getLast?_reverse]
    rfl
  · rw [← width, hnumeral, List.reverse_reverse, List.map_cons, List.tail_cons, ← map_bitText,
      ← map_bitText]
    rfl

/-! ## Both runs -/

/-- A run that compiles a file with success prints the packed rows of a circuit, and with the option
for it the truth table of the circuit. -/
theorem exists_compiled_of_runArguments {files : Files} {file : String}
    (hhelp : Request.ofArguments ["compile", file] ≠ .help)
    (h : (runArguments files ["compile", file]).ending.code = 0) :
    ∃ c table entries, readCircuit files file = .ok c ∧ c.compile? = some table ∧
      c.entries? = some entries ∧
      runArguments files ["compile", file] =
        .ended (packedText table c.outputs.length) .success ∧
      runArguments files ["compile", file, "--print"] =
        .ended (render ⟨c.inputPositions, c.outputPositions, entries⟩) .success := by
  cases hrequest : Request.ofArguments ["compile", file] with
  | help => exact absurd hrequest hhelp
  | misuse =>
    rw [runArguments, hrequest] at h
    cases h
  | run command =>
    obtain ⟨rfl, hprint⟩ := Request.ofArguments_compile_of_run hrequest
    rw [runArguments, hrequest] at h
    obtain ⟨-, c, table, hread, hcheck, htable, -⟩ := exists_compiles_of_runCompile h
    obtain ⟨entries, hentries, -⟩ := Option.map_eq_some_iff.1 htable
    refine ⟨c, table, entries, hread, htable, hentries, ?_, ?_⟩
    · rw [runArguments, hrequest]
      simp only [run, runCompile, hread, hcheck, htable, tableText?, Bool.false_eq_true, if_false,
        finish]
    · rw [runArguments, hprint]
      simp only [run, runCompile, hread, hcheck, htable, tableText?, if_true, ofCircuit?, hentries,
        Option.map_some, finish]

/-- **Both printed forms agree.**  If the compilation of a file exits with zero, and not because the
argument asked for help, it prints one line for each assignment of the circuit in the file.  With
the option for the truth table it succeeds as well, and it prints a header, a divider and one line
for each assignment.  The lines of an assignment show the same outputs, those of its row in the
compiled table. -/
theorem printed_forms_agree (files : Files) (file : String)
    (hhelp : Request.ofArguments ["compile", file] ≠ .help)
    (h : (runArguments files ["compile", file]).ending.code = 0) :
    let packed := runArguments files ["compile", file]
    let printed := runArguments files ["compile", file, "--print"]
    ∃ (c : Circuit) (table : PackedTable) (lines body : List String) (header rule : String),
      readCircuit files file = .ok c ∧ c.compile? = some table ∧
      packed.printed.toList.splitOn '\n' = lines.map String.toList ++ [[]] ∧
      lines.length = 2 ^ c.inputs.length ∧
      printed.ending = .success ∧
      printed.printed.toList.splitOn '\n' = (header :: rule :: body).map String.toList ++ [[]] ∧
      body.length = 2 ^ c.inputs.length ∧
      ∀ i < 2 ^ c.inputs.length, ∃ row line entry,
        table[i]? = some row ∧ lines[i]? = some line ∧ body[i]? = some entry ∧
        ShowsSame c.inputs.length c.outputs.length i row line entry := by
  intro packed printed
  obtain ⟨c, table, entries, hread, htable, hentries, hpacked, hprinted⟩ :=
    exists_compiled_of_runArguments hhelp h
  have hrows : table = entries.map fun e => pack e.outputs :=
    Option.some.inj (htable.symm.trans (Circuit.compile?_of_entries? hentries))
  have hlength : table.length = 2 ^ c.inputs.length := Circuit.length_of_compile? htable
  have hpackedText : packed.printed = packedText table c.outputs.length :=
    congrArg Outcome.printed hpacked
  have hprintedText : printed.printed = render ⟨c.inputPositions, c.outputPositions, entries⟩ :=
    congrArg Outcome.printed hprinted
  have hsplit := splitOn_render ⟨c.inputPositions, c.outputPositions, entries⟩
  rw [← hprintedText, TruthTable.lines] at hsplit
  refine ⟨c, table, table.mapIdx (packedLine c.outputs.length), entries.map entryLine, _, _, hread,
    htable, ?_, ?_, congrArg Outcome.ending hprinted, hsplit, ?_, fun i hi => ?_⟩
  · rw [hpackedText, splitOn_packedText]
  · rw [List.length_mapIdx, hlength]
  · rw [List.length_map, ← hlength, hrows, List.length_map]
  · obtain ⟨e, he, hinputs, hindex, houtputs⟩ := Circuit.exists_entry_of_entries? hentries hi
    have hrow : table[i]? = some (pack e.outputs) := by
      rw [hrows, List.getElem?_map, he, Option.map_some]
    have hsame := showsSame_entry e (houtputs ▸ c.length_outputs_lt)
    rw [hinputs, houtputs, hindex] at hsame
    refine ⟨_, _, _, hrow, ?_, ?_, hsame⟩
    · rw [List.getElem?_mapIdx, hrow, Option.map_some]
    · rw [List.getElem?_map, he, Option.map_some]

/-- A directory with a pin file. -/
def gallery : Directory where
  entries := [("p.pins", Text.encode
    "INPUT(L)\nINPUT(R)\nOUTPUT(T) = AND(L, NOT(R))\nOUTPUT(B) = L\n")]

/-- Of its last two rows the first one has both outputs, and the second one has only the second. -/
theorem printed_forms_agree_gallery :
    (runArguments gallery.files ["compile", "p.pins"]).printed =
        "0: 000\n1: 000\n2: 110\n3: 100\n" ∧
      (runArguments gallery.files ["compile", "p.pins", "--print"]).printed =
        "L   | R   || T   | B  \n----+-----++-----+----\n0   | 0   || 0   | 0  \n" ++
        "0   | 1   || 0   | 0  \n1   | 0   || 1   | 1  \n1   | 1   || 0   | 1  \n" ∧
      ∃ (c : Circuit) (table : PackedTable), readCircuit gallery.files "p.pins" = .ok c ∧
        c.compile? = some table ∧
        ∀ i < 2 ^ c.inputs.length, ∃ row line entry, table[i]? = some row ∧
          ShowsSame c.inputs.length c.outputs.length i row line entry := by
  have hhelp : Request.ofArguments ["compile", "p.pins"] ≠ .help := by decide
  obtain ⟨hcode, hpacked⟩ :
      (runArguments gallery.files ["compile", "p.pins"]).ending.code = 0 ∧
        (runArguments gallery.files ["compile", "p.pins"]).printed =
          "0: 000\n1: 000\n2: 110\n3: 100\n" := by
    decide +kernel
  obtain ⟨c, table, lines, body, header, rule, hread, htable, -, -, -, -, -, hrows⟩ :=
    printed_forms_agree gallery.files "p.pins" hhelp hcode
  refine ⟨hpacked, by decide +kernel, c, table, hread, htable, fun i hi => ?_⟩
  obtain ⟨row, line, entry, hrow, -, -, hsame⟩ := hrows i hi
  exact ⟨row, line, entry, hrow, hsame⟩

end VoxelLogic.Command
