import VoxelLogic.Proofs.Text.Lines
import VoxelLogic.TruthTable.Layout

/-!
# Printed truth tables

A printed table is aligned: all of its lines are equally long, and the bars of the header and of the
entries stand in the columns that the divider marks with a plus.  It also loses nothing.  A bar
stands in no cell and a blank only behind the text of a cell, so the cells can be told apart again,
and with them the columns and the entries.

* `IsRectangular`: the entries of a table have as many values as it has columns.
* `IsCellText`: what is written into cells.
* `columnsOf_cellLine`: bars stand above and below pluses.  Lines are compared by the columns that
  hold a character, which also tells how long they are.
* `cellLine_injective`: a line of cells can be read back.
* `render_aligned`: both properties of a table.
-/

namespace VoxelLogic.TruthTable

open Text

/-- Every entry has a value for each column. -/
def IsRectangular (t : TruthTable) : Prop :=
  ∀ e ∈ t.entries, e.assignment.length = t.inputs.length ∧ e.outputs.length = t.outputs.length

/-! ## Cells -/

/-- A text that fits a cell: one to three letters or digits. -/
structure IsCellText (text : String) : Prop where
  ne_nil : text.toList ≠ []
  length_le : text.length ≤ 3
  isAlphanum : text.toList.all Char.isAlphanum = true

theorem isCellText_token (p : Position) : IsCellText p.token := by
  have h : ∀ q ∈ Position.all, q.token.toList ≠ [] ∧ q.token.length ≤ 3 ∧
      q.token.toList.all Char.isAlphanum = true := by decide
  obtain ⟨hne, hle, hchars⟩ := h p (Position.mem_all p)
  exact ⟨hne, hle, hchars⟩

theorem isCellText_bitText (b : Bool) : IsCellText (bitText b) := by
  cases b <;> exact ⟨by decide, by decide, by decide⟩

theorem bitText_injective : Function.Injective bitText := by
  intro b b'
  cases b <;> cases b' <;> decide

namespace IsCellText

variable {text other : String}

/-- A character that is neither a letter nor a digit stands in no cell text. -/
theorem notMem (h : IsCellText text) {c : Char} (hc : c.isAlphanum = false) :
    c ∉ text.toList := by
  intro hmem
  rw [List.all_eq_true.1 h.isAlphanum c hmem] at hc
  cases hc

theorem length_pad (h : IsCellText text) : (pad .left 3 text).toList.length = 3 := by
  rw [String.length_toList, Text.length_pad, Nat.max_eq_left h.length_le]

/-- A cell holds its text and then blanks. -/
theorem toList_pad (text : String) :
    (pad .left 3 text).toList = text.toList ++ List.replicate (3 - text.length) ' ' := by
  simp [pad]

/-- A text is read back from its cell up to the first blank. -/
theorem takeWhile_pad (h : IsCellText text) :
    (pad .left 3 text).toList.takeWhile (· != ' ') = text.toList := by
  rw [toList_pad]
  refine takeWhile_run (fun c hc => ?_) fun c hc => ?_
  · rw [bne_iff_ne]
    rintro rfl
    exact h.notMem (by decide) hc
  · have hblank : c = ' ' := List.eq_of_mem_replicate (List.mem_of_mem_head? hc)
    rw [hblank]
    rfl

theorem pad_injective (h : IsCellText text) (hother : IsCellText other)
    (heq : (pad .left 3 text).toList = (pad .left 3 other).toList) : text = other := by
  rw [← String.toList_inj, ← h.takeWhile_pad, heq, hother.takeWhile_pad]

/-- A cell begins with its text. -/
theorem exists_pad_eq_cons (h : IsCellText text) :
    ∃ c cs, (pad .left 3 text).toList = c :: cs ∧ c ≠ ' ' := by
  obtain ⟨c, cs, hcs⟩ := List.exists_cons_of_ne_nil h.ne_nil
  refine ⟨c, cs ++ List.replicate (3 - text.length) ' ', ?_, ?_⟩
  · rw [toList_pad, hcs, List.cons_append]
  · rintro rfl
    exact h.notMem (by decide) (hcs ▸ List.mem_cons_self)

end IsCellText

/-! ## The cells of a line -/

theorem cells_singleton (text : String) : cells [text] = pad .left 3 text :=
  String.intercalate_singleton

theorem cells_cons_cons (first second : String) (rest : List String) :
    cells (first :: second :: rest) = pad .left 3 first ++ " | " ++ cells (second :: rest) :=
  String.intercalate_cons_cons

theorem dashes_one : dashes 1 = "---" :=
  String.intercalate_singleton

theorem dashes_succ_succ (columns : Nat) :
    dashes (columns + 2) = "---" ++ "-+-" ++ dashes (columns + 1) :=
  String.intercalate_cons_cons

/-! ## Aligned columns -/

/-- For each column of a line, whether a character stands in it. -/
def columnsOf (mark : Char) (line : String) : List Bool := line.toList.map (· == mark)

@[simp] theorem columnsOf_append (mark : Char) (s t : String) :
    columnsOf mark (s ++ t) = columnsOf mark s ++ columnsOf mark t := by
  rw [columnsOf, String.toList_append, List.map_append, columnsOf, columnsOf]

@[simp] theorem length_columnsOf (mark : Char) (line : String) :
    (columnsOf mark line).length = line.length := by
  rw [columnsOf, List.length_map, String.length_toList]

theorem getElem?_columnsOf_eq_some_true_iff {mark : Char} {line : String} {i : Nat} :
    (columnsOf mark line)[i]? = some true ↔ line.toList[i]? = some mark := by
  simp [columnsOf]

/-- No bar stands in a cell. -/
theorem columnsOf_pad {text : String} (h : IsCellText text) :
    columnsOf '|' (pad .left 3 text) = columnsOf '+' "---" := by
  have hbar : ∀ c ∈ (pad .left 3 text).toList, (c == '|') = false := by
    intro c hc
    rw [IsCellText.toList_pad, List.mem_append] at hc
    rw [beq_eq_false_iff_ne]
    rintro rfl
    rcases hc with hc | hc
    · exact h.notMem (by decide) hc
    · exact absurd (List.eq_of_mem_replicate hc) (by decide)
  have hdashes : columnsOf '+' "---" = List.replicate 3 false := by decide
  rw [hdashes, columnsOf, List.map_congr_left hbar, List.map_const', h.length_pad]

/-- Below every bar between cells stands a plus between dashes. -/
theorem columnsOf_cells {texts : List String} (h : ∀ text ∈ texts, IsCellText text) :
    columnsOf '|' (cells texts) = columnsOf '+' (dashes texts.length) := by
  induction texts with
  | nil => rfl
  | cons first rest ih =>
    rw [List.forall_mem_cons] at h
    cases rest with
    | nil =>
      rw [cells_singleton, List.length_singleton, dashes_one, columnsOf_pad h.1]
    | cons second rest =>
      have hseparator : columnsOf '|' " | " = columnsOf '+' "-+-" := by decide
      rw [cells_cons_cons, List.length_cons, List.length_cons, dashes_succ_succ,
        ← List.length_cons (a := second)]
      simp only [columnsOf_append, columnsOf_pad h.1, hseparator, ih h.2]

/-- **Bars stand above and below pluses**, in any line of cells. -/
theorem columnsOf_cellLine {ins outs : List String} (hins : ∀ text ∈ ins, IsCellText text)
    (houts : ∀ text ∈ outs, IsCellText text) :
    columnsOf '|' (cellLine ins outs) = columnsOf '+' (divider ins.length outs.length) := by
  have hseparator : columnsOf '|' " || " = columnsOf '+' "-++-" := by decide
  simp only [cellLine, divider, columnsOf_append, columnsOf_cells hins, columnsOf_cells houts,
    hseparator]

/-! ## Reading a line back -/

/-- The cells of one side of a line and what follows them: a double bar and the other side. -/
def sideBefore (texts : List String) (rest : List Char) : List Char :=
  (cells texts).toList ++ (" || ".toList ++ rest)

theorem sideBefore_nil (rest : List Char) : sideBefore [] rest = ' ' :: '|' :: '|' :: ' ' :: rest :=
  rfl

theorem sideBefore_singleton (text : String) (rest : List Char) :
    sideBefore [text] rest = (pad .left 3 text).toList ++ (' ' :: '|' :: '|' :: ' ' :: rest) := by
  rw [sideBefore, cells_singleton]
  rfl

theorem sideBefore_cons_cons (first second : String) (more : List String) (rest : List Char) :
    sideBefore (first :: second :: more) rest =
      (pad .left 3 first).toList ++ (' ' :: '|' :: ' ' :: sideBefore (second :: more) rest) := by
  rw [sideBefore, cells_cons_cons, String.toList_append, String.toList_append, List.append_assoc,
    List.append_assoc]
  rfl

/-- A side with cells begins with a cell. -/
theorem exists_sideBefore_cons (first : String) (more : List String) (rest : List Char) :
    ∃ tail, sideBefore (first :: more) rest = (pad .left 3 first).toList ++ tail := by
  cases more with
  | nil => exact ⟨_, sideBefore_singleton first rest⟩
  | cons second more => exact ⟨_, sideBefore_cons_cons first second more rest⟩

/-- A side without cells is not a side with cells: it begins with a blank. -/
theorem sideBefore_nil_ne {first : String} (h : IsCellText first) (more : List String)
    (rest other : List Char) : sideBefore [] rest ≠ sideBefore (first :: more) other := by
  obtain ⟨tail, htail⟩ := exists_sideBefore_cons first more other
  obtain ⟨c, cs, hcs, hc⟩ := h.exists_pad_eq_cons
  rw [htail, hcs, sideBefore_nil]
  intro heq
  exact hc (List.cons.inj heq).1.symm

/-- **The cells of a side are told by its text**, whatever follows them. -/
theorem sideBefore_inj {xs ys : List String} (hxs : ∀ text ∈ xs, IsCellText text)
    (hys : ∀ text ∈ ys, IsCellText text) {rest other : List Char}
    (h : sideBefore xs rest = sideBefore ys other) : xs = ys ∧ rest = other := by
  induction xs generalizing ys with
  | nil =>
    cases ys with
    | nil => simpa [sideBefore_nil] using h
    | cons y ys => exact absurd h (sideBefore_nil_ne (hys y List.mem_cons_self) ys _ _)
  | cons x xs ih =>
    cases ys with
    | nil => exact absurd h.symm (sideBefore_nil_ne (hxs x List.mem_cons_self) xs _ _)
    | cons y ys =>
      rw [List.forall_mem_cons] at hxs hys
      have hlength : (pad .left 3 x).toList.length = (pad .left 3 y).toList.length := by
        rw [hxs.1.length_pad, hys.1.length_pad]
      -- behind the cell a second bar follows the first exactly if it was the last cell
      cases xs with
      | nil =>
        cases ys with
        | nil =>
          rw [sideBefore_singleton, sideBefore_singleton] at h
          obtain ⟨hcell, htail⟩ := List.append_inj h hlength
          rw [hxs.1.pad_injective hys.1 hcell]
          exact ⟨rfl, by simpa using htail⟩
        | cons y' ys =>
          rw [sideBefore_singleton, sideBefore_cons_cons] at h
          have htail := (List.append_inj h hlength).2
          simp at htail
      | cons x' xs =>
        cases ys with
        | nil =>
          rw [sideBefore_singleton, sideBefore_cons_cons] at h
          have htail := (List.append_inj h hlength).2
          simp at htail
        | cons y' ys =>
          rw [sideBefore_cons_cons, sideBefore_cons_cons] at h
          obtain ⟨hcell, htail⟩ := List.append_inj h hlength
          obtain ⟨hmore, hrest⟩ := ih hxs.2 hys.2 (by simpa using htail)
          rw [hxs.1.pad_injective hys.1 hcell, hmore]
          exact ⟨rfl, hrest⟩

/-- **A line of cells can be read back.** -/
theorem cellLine_injective {ins outs ins' outs' : List String}
    (hins : ∀ text ∈ ins, IsCellText text) (houts : ∀ text ∈ outs, IsCellText text)
    (hins' : ∀ text ∈ ins', IsCellText text) (houts' : ∀ text ∈ outs', IsCellText text)
    (h : cellLine ins outs = cellLine ins' outs') : ins = ins' ∧ outs = outs' := by
  have hline (xs ys : List String) : (cellLine xs ys).toList = sideBefore xs (cells ys).toList := by
    rw [cellLine, String.toList_append, String.toList_append, List.append_assoc, sideBefore]
  have hside := congrArg String.toList h
  rw [hline, hline] at hside
  obtain ⟨rfl, hcells⟩ := sideBefore_inj hins hins' hside
  have hends : sideBefore outs [] = sideBefore outs' [] := by
    rw [sideBefore, sideBefore, hcells]
  exact ⟨rfl, (sideBefore_inj houts houts' hends).1⟩

theorem forall_isCellText_tokens (ps : List Position) :
    ∀ text ∈ ps.map Position.token, IsCellText text :=
  List.forall_mem_map.2 fun p _ => isCellText_token p

theorem forall_isCellText_bits (bs : List Bool) : ∀ text ∈ bs.map bitText, IsCellText text :=
  List.forall_mem_map.2 fun b _ => isCellText_bitText b

/-- The columns of a table are told by its header. -/
theorem header_injective {ins outs ins' outs' : List Position}
    (h : cellLine (ins.map Position.token) (outs.map Position.token) =
      cellLine (ins'.map Position.token) (outs'.map Position.token)) :
    ins = ins' ∧ outs = outs' := by
  have htoken : Function.Injective Position.token := fun _ _ => Position.token_injective
  obtain ⟨hins, houts⟩ := cellLine_injective (forall_isCellText_tokens _)
    (forall_isCellText_tokens _) (forall_isCellText_tokens _) (forall_isCellText_tokens _) h
  exact ⟨List.map_injective_iff.2 htoken hins, List.map_injective_iff.2 htoken houts⟩

/-- An entry is told by its line. -/
theorem entryLine_injective : Function.Injective entryLine := by
  rintro ⟨a, outs⟩ ⟨a', outs'⟩ h
  have hmap := List.map_injective_iff.2 bitText_injective
  obtain ⟨ha, houts⟩ := cellLine_injective (forall_isCellText_bits _) (forall_isCellText_bits _)
    (forall_isCellText_bits _) (forall_isCellText_bits _) h
  obtain rfl : a = a' := hmap ha
  obtain rfl : outs = outs' := hmap houts
  rfl

/-! ## The lines of the text -/

theorem notMem_intercalate {c : Char} {separator : String} {texts : List String}
    (hseparator : c ∉ separator.toList) (h : ∀ text ∈ texts, c ∉ text.toList) :
    c ∉ (separator.intercalate texts).toList := by
  induction texts with
  | nil => exact List.not_mem_nil
  | cons first rest ih =>
    rw [List.forall_mem_cons] at h
    cases rest with
    | nil =>
      rw [String.intercalate_singleton]
      exact h.1
    | cons second rest =>
      rw [String.intercalate_cons_cons, String.toList_append, String.toList_append,
        List.mem_append, List.mem_append, not_or, not_or]
      exact ⟨⟨h.1, hseparator⟩, ih h.2⟩

theorem newline_notMem_cells {texts : List String} (h : ∀ text ∈ texts, IsCellText text) :
    '\n' ∉ (cells texts).toList := by
  refine notMem_intercalate (by decide) (List.forall_mem_map.2 fun text htext hmem => ?_)
  rw [IsCellText.toList_pad, List.mem_append] at hmem
  rcases hmem with hmem | hmem
  · exact (h text htext).notMem (by decide) hmem
  · exact absurd (List.eq_of_mem_replicate hmem) (by decide)

theorem newline_notMem_cellLine {ins outs : List String} (hins : ∀ text ∈ ins, IsCellText text)
    (houts : ∀ text ∈ outs, IsCellText text) : '\n' ∉ (cellLine ins outs).toList := by
  rw [cellLine, String.toList_append, String.toList_append, List.mem_append, List.mem_append,
    not_or, not_or]
  exact ⟨⟨newline_notMem_cells hins, by decide⟩, newline_notMem_cells houts⟩

theorem newline_notMem_dashes (columns : Nat) : '\n' ∉ (dashes columns).toList := by
  refine notMem_intercalate (by decide) fun text htext => ?_
  rw [List.eq_of_mem_replicate htext]
  decide

theorem newline_notMem_divider (ins outs : Nat) : '\n' ∉ (divider ins outs).toList := by
  rw [divider, String.toList_append, String.toList_append, List.mem_append, List.mem_append,
    not_or, not_or]
  exact ⟨⟨newline_notMem_dashes ins, by decide⟩, newline_notMem_dashes outs⟩

/-- The text of a table is cut into its lines, and nothing follows the last of them. -/
theorem splitOn_render (t : TruthTable) :
    t.render.toList.splitOn '\n' = t.lines.map String.toList ++ [[]] := by
  refine splitOn_join fun line hline => ?_
  rcases List.mem_cons.1 hline with rfl | hline
  · exact newline_notMem_cellLine (forall_isCellText_tokens _) (forall_isCellText_tokens _)
  rcases List.mem_cons.1 hline with rfl | hline
  · exact newline_notMem_divider _ _
  · obtain ⟨e, -, rfl⟩ := List.mem_map.1 hline
    exact newline_notMem_cellLine (forall_isCellText_bits _) (forall_isCellText_bits _)

/-- **A printed table loses nothing.** -/
theorem eq_of_render_eq {t u : TruthTable} (h : t.render = u.render) : t = u := by
  have hlines : t.lines.map String.toList = u.lines.map String.toList := by
    have hsplit := congrArg (fun text => text.toList.splitOn '\n') h
    simp only [splitOn_render] at hsplit
    exact List.append_cancel_right hsplit
  have hlines : t.lines = u.lines :=
    List.map_injective_iff.2 (fun _ _ => String.toList_inj.1) hlines
  obtain ⟨hheader, hbelow⟩ := List.cons.inj hlines
  obtain ⟨-, hentries⟩ := List.cons.inj hbelow
  obtain ⟨hinputs, houtputs⟩ := header_injective hheader
  obtain ⟨inputs, outputs, entries⟩ := t
  obtain rfl : inputs = u.inputs := hinputs
  obtain rfl : outputs = u.outputs := houtputs
  obtain rfl : entries = u.entries := List.map_injective_iff.2 entryLine_injective hentries
  rfl

/-- The lines of cells of a table. -/
def cellLines (t : TruthTable) : List String :=
  cellLine (t.inputs.map Position.token) (t.outputs.map Position.token) :: t.entries.map entryLine

/-- The bars of the header and of the entries stand above and below the pluses of the divider. -/
theorem columnsOf_of_mem_cellLines {t : TruthTable} (h : t.IsRectangular) {line : String}
    (hline : line ∈ t.cellLines) :
    columnsOf '|' line = columnsOf '+' (divider t.inputs.length t.outputs.length) := by
  rcases List.mem_cons.1 hline with rfl | hline
  · rw [columnsOf_cellLine (forall_isCellText_tokens _) (forall_isCellText_tokens _),
      List.length_map, List.length_map]
  · obtain ⟨e, he, rfl⟩ := List.mem_map.1 hline
    obtain ⟨hinputs, houtputs⟩ := h e he
    rw [entryLine, columnsOf_cellLine (forall_isCellText_bits _) (forall_isCellText_bits _),
      List.length_map, List.length_map, hinputs, houtputs]

/-- All lines of a table are as long as its divider. -/
theorem length_of_mem_cellLines {t : TruthTable} (h : t.IsRectangular) {line : String}
    (hline : line ∈ t.cellLines) :
    line.length = (divider t.inputs.length t.outputs.length).length := by
  have hcolumns := congrArg List.length (columnsOf_of_mem_cellLines h hline)
  rwa [length_columnsOf, length_columnsOf] at hcolumns

/-- **Printed tables.**  The text of a table consists of a header, a divider and one line for each
entry, each with its line feed.  They have the same number of characters, and the bars of the header
and of the entries stand in those columns in which the divider has its pluses.  No other table is
printed as the same text. -/
theorem render_aligned {t : TruthTable} (h : t.IsRectangular) :
    (∃ (header rule : String) (body : List String),
      t.render.toList.splitOn '\n' = (header :: rule :: body).map String.toList ++ [[]] ∧
      body.length = t.entries.length ∧
      (∀ line ∈ header :: rule :: body, line.length = rule.length) ∧
      ∀ line ∈ header :: body, ∀ i : Nat,
        line.toList[i]? = some '|' ↔ rule.toList[i]? = some '+') ∧
    ∀ u : TruthTable, u.render = t.render → u = t := by
  refine ⟨⟨_, _, t.entries.map entryLine, splitOn_render t, List.length_map _, ?_, ?_⟩,
    fun u => eq_of_render_eq⟩
  · intro line hline
    rcases List.mem_cons.1 hline with rfl | hline
    · exact length_of_mem_cellLines h List.mem_cons_self
    rcases List.mem_cons.1 hline with rfl | hline
    · rfl
    · exact length_of_mem_cellLines h (List.mem_cons_of_mem _ hline)
  · intro line hline i
    rw [← getElem?_columnsOf_eq_some_true_iff, ← getElem?_columnsOf_eq_some_true_iff,
      columnsOf_of_mem_cellLines h hline]

/-- The table of a module that keeps its input in a state slot and shows it inverted. -/
def kept : TruthTable :=
  ⟨[.site .front .top .left], [.slot (.last 7), .site .back .down .right],
    [⟨[false], [false, true]⟩, ⟨[true], [true, false]⟩]⟩

/-- Of the tables only one is printed as these four lines. -/
theorem render_kept :
    kept.IsRectangular ∧
      kept.render =
        "FLT || S8  | BRD\n----++-----+----\n0   || 0   | 1  \n1   || 1   | 0  \n" ∧
      (∃ (header rule : String) (body : List String),
        kept.render.toList.splitOn '\n' = (header :: rule :: body).map String.toList ++ [[]] ∧
        body.length = 2 ∧ (∀ line ∈ header :: rule :: body, line.length = rule.length) ∧
        ∀ line ∈ header :: body, ∀ i : Nat,
          line.toList[i]? = some '|' ↔ rule.toList[i]? = some '+') ∧
      ∀ u : TruthTable,
        u.render = "FLT || S8  | BRD\n----++-----+----\n0   || 0   | 1  \n1   || 1   | 0  \n" →
          u = kept := by
  have hrectangular : kept.IsRectangular := by
    intro e he
    simp only [kept, List.mem_cons, List.not_mem_nil, or_false] at he
    rcases he with rfl | rfl <;> exact ⟨rfl, rfl⟩
  have hrender : kept.render =
      "FLT || S8  | BRD\n----++-----+----\n0   || 0   | 1  \n1   || 1   | 0  \n" := by decide
  obtain ⟨haligned, honly⟩ := render_aligned hrectangular
  exact ⟨hrectangular, hrender, haligned, fun u hu => honly u (hu.trans hrender.symm)⟩

end VoxelLogic.TruthTable
