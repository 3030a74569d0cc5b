import VoxelLogic.Text.Lines
import Mathlib.Data.List.DropRight

/-!
# Texts as lines

A text that is written line by line is cut into the same lines when it is read, and every line is
decoded to what was written.

* `decode?_encode`: a text survives being encoded.
* `encode_eq_flatMap`: a text is encoded character by character.
* `lineFeed_notMem_encode`: only a line feed is encoded with the byte that ends a line.
* `takeWhile_run`, `dropWhile_run`: how a run of items is cut off.
* `lines_encode`: the lines of any text.
* `splitOn_join`, `lines_encode_join`: the lines of a text that was joined of lines.
-/

namespace VoxelLogic.Text

/-! ## Bytes of a text -/

/-- A text survives being encoded. -/
@[simp] theorem decode?_encode (text : String) : decode? (encode text) = some text := by
  have hbytes : (encode text).toByteArray = text.toByteArray := by
    apply ByteArray.ext
    rw [List.data_toByteArray, encode, String.toUTF8_eq_toByteArray, Array.toArray_toList]
  rw [decode?, hbytes, String.fromUTF8?, dif_pos text.isValidUTF8]
  rfl

theorem encode_append (s t : String) : encode (s ++ t) = encode s ++ encode t := by
  simp [encode, String.toByteArray_append]

/-- A text is encoded character by character. -/
theorem encode_eq_flatMap (text : String) :
    encode text = text.toList.flatMap String.utf8EncodeChar := by
  rw [encode, String.toUTF8_eq_toByteArray, ← String.utf8Encode_toList, List.utf8Encode,
    List.toList_data_toByteArray]

/-- An ASCII character is encoded as its code. -/
theorem utf8EncodeChar_of_lt {c : Char} (h : c.toNat < 128) :
    String.utf8EncodeChar c = [UInt8.ofNat c.toNat] := by
  have hle : c.val.toNat ≤ 127 := Nat.le_of_lt_succ h
  simp only [String.utf8EncodeChar, if_pos hle]
  rfl

/-- A text of ASCII characters is encoded as their codes. -/
theorem encode_of_ascii {text : String} (h : ∀ c ∈ text.toList, c.toNat < 128) :
    encode text = text.toList.map fun c => UInt8.ofNat c.toNat := by
  rw [encode_eq_flatMap]
  generalize text.toList = cs at h
  induction cs with
  | nil => rfl
  | cons c cs ih =>
    rw [List.flatMap_cons, List.map_cons, utf8EncodeChar_of_lt (h c List.mem_cons_self),
      ih fun d hd => h d (List.mem_cons_of_mem c hd)]
    rfl

/-- All bytes of a character that is not ASCII are large. -/
theorem le_of_mem_utf8EncodeChar {c : Char} (h : 128 ≤ c.toNat) {b : UInt8}
    (hb : b ∈ String.utf8EncodeChar c) : 128 ≤ b.toNat := by
  have hlarge : ∀ n, 128 ≤ n → n < 256 → 128 ≤ (UInt8.ofNat n).toNat := by
    intro n hn hlt
    rw [UInt8.toNat_ofNat_of_lt' hlt]
    exact hn
  have hnot : ¬ c.val.toNat ≤ 127 := Nat.not_le.2 h
  simp only [String.utf8EncodeChar, if_neg hnot] at hb
  split at hb
  · simp only [List.mem_cons, List.not_mem_nil, or_false] at hb
    rcases hb with rfl | rfl <;> exact hlarge _ (by omega) (by omega)
  · split at hb
    · simp only [List.mem_cons, List.not_mem_nil, or_false] at hb
      rcases hb with rfl | rfl | rfl <;> exact hlarge _ (by omega) (by omega)
    · simp only [List.mem_cons, List.not_mem_nil, or_false] at hb
      rcases hb with rfl | rfl | rfl | rfl <;> exact hlarge _ (by omega) (by omega)

/-- Only a line feed is encoded with the byte that ends a line. -/
theorem lineFeed_notMem_encode {text : String} (h : '\n' ∉ text.toList) :
    lineFeed ∉ encode text := by
  rw [encode_eq_flatMap, List.mem_flatMap]
  rintro ⟨c, hc, hb⟩
  rcases Nat.lt_or_ge c.toNat 128 with hlt | hge
  · rw [utf8EncodeChar_of_lt hlt, List.mem_singleton] at hb
    have hval := congrArg UInt8.toNat hb
    rw [UInt8.toNat_ofNat_of_lt' (Nat.lt_trans hlt (by decide))] at hval
    have hnewline : c = '\n' := Char.toNat_inj.1 hval.symm
    exact h (hnewline ▸ hc)
  · have hle := le_of_mem_utf8EncodeChar hge hb
    exact absurd hle (by decide)

/-! ## Cutting -/

variable {α : Type}

/-- A run of items that is not continued is taken whole. -/
theorem takeWhile_run {p : α → Bool} {run rest : List α} (hrun : ∀ x ∈ run, p x = true)
    (hrest : ∀ x ∈ rest.head?, p x = false) : (run ++ rest).takeWhile p = run := by
  rw [List.takeWhile_append_of_pos hrun]
  cases rest with
  | nil => rw [List.takeWhile_nil, List.append_nil]
  | cons x rest =>
    have hx : p x = false := hrest x rfl
    rw [List.takeWhile_cons_of_neg (by simp [hx]), List.append_nil]

/-- Dropping a run of items that is not continued leaves what follows it. -/
theorem dropWhile_run {p : α → Bool} {run rest : List α} (hrun : ∀ x ∈ run, p x = true)
    (hrest : ∀ x ∈ rest.head?, p x = false) : (run ++ rest).dropWhile p = rest := by
  rw [List.dropWhile_append_of_pos hrun]
  cases rest with
  | nil => rfl
  | cons x rest =>
    have hx : p x = false := hrest x rfl
    rw [List.dropWhile_cons_of_neg (by simp [hx])]

/-- A line is cut off at its line feed. -/
theorem lines_append_lineFeed {line : List UInt8} (h : lineFeed ∉ line) (rest : List UInt8) :
    lines (line ++ lineFeed :: rest) = line :: lines rest := by
  have hline : ∀ b ∈ line, (b != lineFeed) = true := by
    intro b hb
    exact bne_iff_ne.2 fun heq => h (heq ▸ hb)
  have hend : ∀ b ∈ (lineFeed :: rest).head?, (b != lineFeed) = false := by
    rintro b ⟨⟩
    exact bne_self_eq_false lineFeed
  have hdrop := dropWhile_run hline hend
  rw [lines]
  split
  · next hnil =>
    rw [hdrop] at hnil
    cases hnil
  · next hcons =>
    rw [hdrop] at hcons
    obtain ⟨-, rfl⟩ := List.cons.inj hcons
    rw [takeWhile_run hline hend]

/-- The last line of a file has no line feed. -/
theorem lines_of_notMem {line : List UInt8} (h : lineFeed ∉ line) : lines line = [line] := by
  have hline : ∀ b ∈ line, (b != lineFeed) = true := fun b hb =>
    bne_iff_ne.2 fun heq => h (heq ▸ hb)
  rw [lines]
  split
  · rw [List.takeWhile_eq_self_iff.2 hline]
  · next hcons =>
    rw [List.dropWhile_eq_nil_iff.2 hline] at hcons
    cases hcons

/-- A text is cut into lines at its line feeds, before or after it is encoded. -/
theorem lines_encode (text : String) :
    lines (encode text) =
      (text.toList.splitOn '\n').map fun line => encode (String.ofList line) := by
  have hcut (cs : List Char) : lines (encode (String.ofList cs)) =
      (cs.splitOn '\n').map fun line => encode (String.ofList line) := by
    induction hlength : cs.length using Nat.strong_induction_on generalizing cs with
    | _ n ih =>
    by_cases hmem : '\n' ∈ cs
    · obtain ⟨line, rest, rfl, hline⟩ := List.eq_append_cons_of_mem hmem
      have hrest : rest.length < n := by
        rw [← hlength, List.length_append, List.length_cons]
        omega
      have hnewline : encode (String.ofList (line ++ '\n' :: rest)) =
          encode (String.ofList line) ++ lineFeed :: encode (String.ofList rest) := by
        simp only [encode_eq_flatMap, String.toList_ofList, List.flatMap_append, List.flatMap_cons]
        rfl
      have hfree : lineFeed ∉ encode (String.ofList line) :=
        lineFeed_notMem_encode (by rwa [String.toList_ofList])
      rw [hnewline, lines_append_lineFeed hfree, ih _ hrest rest rfl,
        List.splitOn_append_cons_self_of_not_mem hline, List.map_cons]
    · rw [lines_of_notMem (lineFeed_notMem_encode (by rwa [String.toList_ofList])),
        List.splitOn_eq_singleton hmem, List.map_singleton]
  rw [← hcut, String.ofList_toList]

/-- A text that was joined of lines is cut into these lines, and nothing follows the last line
feed. -/
theorem splitOn_join {texts : List String} (h : ∀ text ∈ texts, '\n' ∉ text.toList) :
    (String.join (texts.map (· ++ "\n"))).toList.splitOn '\n' =
      texts.map String.toList ++ [[]] := by
  induction texts with
  | nil => rfl
  | cons text rest ih =>
    have hnewline : "\n".toList = ['\n'] := rfl
    rw [List.forall_mem_cons] at h
    rw [List.map_cons, String.join_cons, String.toList_append, String.toList_append, hnewline,
      List.append_assoc, List.singleton_append, List.splitOn_append_cons_self_of_not_mem h.1,
      ih h.2, List.map_cons, List.cons_append]

/-- The lines of a text that was joined of lines, and the empty line after the last line feed. -/
theorem lines_encode_join {texts : List String} (h : ∀ text ∈ texts, '\n' ∉ text.toList) :
    lines (encode (String.join (texts.map (· ++ "\n")))) = texts.map encode ++ [[]] := by
  have hline (text : String) : encode (String.ofList text.toList) = encode text := by
    rw [String.ofList_toList]
  rw [lines_encode, splitOn_join h, List.map_append, List.map_map]
  exact congrArg (· ++ [[]]) (List.map_congr_left fun text _ => hline text)

end VoxelLogic.Text
