import VoxelLogic.Json.Layout
import VoxelLogic.Proofs.Json.Numeral

/-!
# Written arrays of a JSON text

An array that is written with one member to a line is read back member by member.

* `ReadBy`: a text that a reader reads as a value, behind any blanks and before anything that does
  not go on with a number.
* `encode_block`: the bytes of members in brackets.
* `readBy_readNatural`, `readBy_readArray`: numbers and arrays.
-/

namespace VoxelLogic.Json

open Text

variable {α β : Type}

/-- A text that a reader reads as a value. -/
structure ReadBy (read : (source : List UInt8) → Except Fault (Reading α source))
    (text : List UInt8) (value : α) : Prop where
  begins : ∃ b more, text = b :: more ∧ isBlank b = false ∧ b ≠ arrayEnd
  yields : ∀ blanks rest, (∀ b ∈ blanks, isBlank b = true) → EndsNumber rest →
    Yields (read (blanks ++ (text ++ rest))) value rest

/-! ## Layout -/

/-- The bytes of a line break and the indentation of the next line. -/
def lineBreak (depth : Nat) : List UInt8 := lineFeed :: List.replicate (2 * depth) 0x20

theorem isBlank_of_mem_lineBreak {depth : Nat} : ∀ b ∈ lineBreak depth, isBlank b = true := by
  intro b hb
  rcases List.mem_cons.1 hb with rfl | hspace
  · decide
  · rw [List.eq_of_mem_replicate hspace]
    decide

theorem encode_lineBreak (depth : Nat) : encode ("\n" ++ indentation depth) = lineBreak depth := by
  have hspaces : ∀ c ∈ (indentation depth).toList, c.toNat < 128 := by
    intro c hc
    rw [indentation, String.toList_ofList] at hc
    rw [List.eq_of_mem_replicate hc]
    decide
  have hnewline : encode "\n" = [lineFeed] := by decide
  rw [encode_append, hnewline, encode_of_ascii hspaces, indentation, String.toList_ofList,
    List.map_replicate]
  rfl

/-- The bytes of texts with a separator between them. -/
theorem encode_intercalate (separator first : String) (rest : List String) :
    encode (separator.intercalate (first :: rest)) =
      encode first ++ rest.flatMap fun text => encode separator ++ encode text := by
  induction rest generalizing first with
  | nil => rw [String.intercalate_singleton, List.flatMap_nil, List.append_nil]
  | cons second rest ih =>
    rw [String.intercalate_cons_cons, encode_append, encode_append, ih, List.flatMap_cons]
    simp only [List.append_assoc]

/-- The bytes from the end of a member to the end of its brackets. -/
def afterMember (depth : Nat) (closing : UInt8) (texts : List (List UInt8)) : List UInt8 :=
  texts.flatMap (fun text => comma :: (lineBreak (depth + 1) ++ text)) ++
    (lineBreak depth ++ [closing])

theorem afterMember_nil (depth : Nat) (closing : UInt8) (rest : List UInt8) :
    afterMember depth closing [] ++ rest = lineBreak depth ++ closing :: rest := by
  rw [afterMember, List.flatMap_nil, List.nil_append, List.append_assoc, List.singleton_append]

theorem afterMember_cons (depth : Nat) (closing : UInt8) (text : List UInt8)
    (texts : List (List UInt8)) (rest : List UInt8) :
    afterMember depth closing (text :: texts) ++ rest =
      comma :: (lineBreak (depth + 1) ++ (text ++ (afterMember depth closing texts ++ rest))) := by
  simp only [afterMember, List.flatMap_cons, List.append_assoc, List.cons_append]

/-- The bytes of members between brackets. -/
theorem encode_block {opening closing : String} {first last : UInt8}
    (hopening : encode opening = [first]) (hclosing : encode closing = [last]) (depth : Nat)
    (member : String) (members : List String) :
    encode (block opening closing depth (member :: members)) =
      first :: (lineBreak (depth + 1) ++
        (encode member ++ afterMember depth last (members.map encode))) := by
  have hcomma : encode ",\n" = comma :: encode "\n" := by decide
  have hline : ∀ text : String, encode (memberLine depth text) =
      encode (indentation (depth + 1)) ++ encode text := fun text => encode_append _ _
  simp only [block, List.map_cons, encode_append, encode_intercalate, hopening, hclosing, hline,
    hcomma, afterMember, ← encode_lineBreak, List.flatMap_map, List.append_assoc,
    List.cons_append, List.nil_append]

/-- A line break or a comma does not go on with a number. -/
theorem endsNumber_cons {b : UInt8} (h : b = comma ∨ b = lineFeed) (rest : List UInt8) :
    EndsNumber (b :: rest) := by
  rintro c ⟨⟩
  rcases h with rfl | rfl <;> decide

theorem endsNumber_afterMember (depth : Nat) (closing : UInt8) (texts : List (List UInt8))
    (rest : List UInt8) : EndsNumber (afterMember depth closing texts ++ rest) := by
  cases texts with
  | nil => exact endsNumber_cons (Or.inr rfl) _
  | cons text texts => exact endsNumber_cons (Or.inl rfl) _

/-! ## Numbers -/

theorem readBy_readNatural {largest n : Nat} (hlargest : largest < UInt64.size)
    (hn : n ≤ largest) : ReadBy (readNatural largest) (encode (toString n)) n := by
  rw [encode_toString]
  constructor
  · cases hbytes : digitBytes n with
    | nil => exact absurd hbytes (digitBytes_ne_nil n)
    | cons d ds =>
      have hdigit : isDigit d = true := isDigit_of_mem_digitBytes (hbytes ▸ List.mem_cons_self)
      refine ⟨d, ds, rfl, isBlank_of_isDigit hdigit, ?_⟩
      rintro rfl
      exact absurd hdigit (by decide)
  · intro blanks rest hblanks hrest
    exact yields_readNatural hlargest hn hblanks hrest

/-! ## Arrays -/

variable {member : (source : List UInt8) → Except Fault (Reading α source)}
  {text : β → List UInt8} {value : β → α}

theorem next?_lineBreak (depth : Nat) {b : UInt8} (hb : isBlank b = false)
    {left rest : List UInt8} (hleft : left = lineBreak depth ++ b :: rest) :
    ∃ r, next? left = some r ∧ r.value = b ∧ r.rest = rest := by
  subst hleft
  exact next?_append isBlank_of_mem_lineBreak hb rest

theorem next?_cons {b : UInt8} (hb : isBlank b = false) {left rest : List UInt8}
    (hleft : left = b :: rest) : ∃ r, next? left = some r ∧ r.value = b ∧ r.rest = rest := by
  have hnone : ∀ c ∈ ([] : List UInt8), isBlank c = true := fun _ h => nomatch h
  subst hleft
  exact next?_append hnone hb rest

/-- The closing bracket ends the members. -/
theorem yields_membersEnd {source left : List UInt8} {b : Reading UInt8 left}
    (hb : next? left = some b) (hend : b.value = arrayEnd) (read : List α)
    (hle : left.length ≤ source.length) :
    Yields (readMembersAfter member source read left hle) read.reverse b.rest := by
  unfold Yields readMembersAfter
  simp only [hb, hend, if_true]
  exact ⟨_, rfl, rfl, rfl⟩

/-- A comma is followed by another member. -/
theorem yields_membersMore {source left : List UInt8} {b : Reading UInt8 left}
    (hb : next? left = some b) (hcomma : b.value = comma) {c : Reading UInt8 b.rest}
    (hc : next? b.rest = some c) (hne : c.value ≠ arrayEnd) {r : Reading α b.rest}
    (hr : member b.rest = .ok r) {read values : List α} {rest : List UInt8}
    (hmore : ∀ hle, Yields (readMembersAfter member source (r.value :: read) r.rest hle) values
      rest)
    (hle : left.length ≤ source.length) :
    Yields (readMembersAfter member source read left hle) values rest := by
  have hopen : comma ≠ arrayEnd := by decide
  unfold readMembersAfter
  simp only [hb, hcomma, if_neg hopen, if_true, hc, if_neg hne, hr]
  exact hmore _

/-- The members of an array after the first. -/
theorem yields_readMembersAfter {xs : List β} (h : ∀ x ∈ xs, ReadBy member (text x) (value x))
    {source left : List UInt8} (read : List α) (depth : Nat) {rest : List UInt8}
    (hleft : left = afterMember depth arrayEnd (xs.map text) ++ rest)
    (hle : left.length ≤ source.length) :
    Yields (readMembersAfter member source read left hle) (read.reverse ++ xs.map value)
      rest := by
  induction xs generalizing read left with
  | nil =>
    have hblank : isBlank arrayEnd = false := rfl
    rw [List.map_nil, afterMember_nil] at hleft
    obtain ⟨b, hb, hvalue, hrest⟩ := next?_lineBreak depth hblank hleft
    have hclosed : Yields (readMembersAfter member source read left hle) read.reverse b.rest :=
      yields_membersEnd hb hvalue read hle
    rwa [hrest, ← List.append_nil read.reverse] at hclosed
  | cons x xs ih =>
    have hx := h x List.mem_cons_self
    have hcomma : isBlank comma = false := rfl
    rw [List.map_cons, afterMember_cons] at hleft
    obtain ⟨b, hb, hvalue, hrest⟩ := next?_cons hcomma hleft
    obtain ⟨d, ds, htext, hblank, hne⟩ := hx.begins
    have hbehind : b.rest = lineBreak (depth + 1) ++ d ::
        (ds ++ (afterMember depth arrayEnd (xs.map text) ++ rest)) := by
      rw [hrest, htext, List.cons_append]
    obtain ⟨c, hc, hcvalue, -⟩ := next?_lineBreak (depth + 1) hblank hbehind
    have hmember : Yields (member b.rest) (value x)
        (afterMember depth arrayEnd (xs.map text) ++ rest) := by
      rw [hrest]
      exact hx.yields _ _ isBlank_of_mem_lineBreak (endsNumber_afterMember depth _ _ rest)
    obtain ⟨r, hr, hrvalue, hrrest⟩ := hmember
    have hcne : c.value ≠ arrayEnd := by
      rw [hcvalue]
      exact hne
    refine yields_membersMore hb hvalue hc hcne hr (fun hle' => ?_) hle
    have hmore := ih (fun y hy => h y (List.mem_cons_of_mem x hy)) (r.value :: read) hrrest hle'
    rw [List.reverse_cons, List.append_assoc, List.singleton_append] at hmore
    rwa [List.map_cons, ← hrvalue]

/-- The members of an array, if there is one. -/
theorem yields_readMembers {source : List UInt8} {b : Reading UInt8 source}
    (hb : next? source = some b) (hne : b.value ≠ arrayEnd) {r : Reading α source}
    (hr : member source = .ok r) {values : List α} {rest : List UInt8}
    (hafter : ∀ hle, Yields (readMembersAfter member source [r.value] r.rest hle) values rest) :
    Yields (readMembers member source) values rest := by
  unfold Yields readMembers
  simp only [hb, if_neg hne, hr]
  exact hafter _

/-- An array is read from its opening bracket on. -/
theorem yields_readArray {source : List UInt8} {b : Reading UInt8 source}
    (hb : next? source = some b) (hstart : b.value = arrayStart) {values : List α}
    {rest : List UInt8} (h : Yields (readMembers member b.rest) values rest) :
    Yields (readArray member source) values rest := by
  obtain ⟨r, hr, rfl, rfl⟩ := h
  unfold Yields readArray
  simp only [hb, hstart, if_true, hr]
  exact ⟨_, rfl, rfl, rfl⟩

/-- Two brackets are an array without members. -/
theorem yields_readMembers_nil (rest : List UInt8) :
    Yields (readMembers member (arrayEnd :: rest)) [] rest := by
  have hblank : isBlank arrayEnd = false := rfl
  obtain ⟨b, hb, hvalue, hrest⟩ := next?_cons hblank (rfl : arrayEnd :: rest = _)
  unfold Yields readMembers
  simp only [hb, hvalue, if_true]
  exact ⟨_, rfl, rfl, hrest⟩

/-- Members on lines of their own are an array of their values. -/
theorem yields_readMembers_cons {x : β} {xs : List β}
    (h : ∀ y ∈ x :: xs, ReadBy member (text y) (value y)) (depth : Nat) (rest : List UInt8) :
    Yields (readMembers member (lineBreak (depth + 1) ++
      (text x ++ (afterMember depth arrayEnd (xs.map text) ++ rest)))) ((x :: xs).map value)
      rest := by
  have hx := h x List.mem_cons_self
  obtain ⟨d, ds, htext, hblank, hne⟩ := hx.begins
  have hsource : lineBreak (depth + 1) ++
      (text x ++ (afterMember depth arrayEnd (xs.map text) ++ rest)) = lineBreak (depth + 1) ++
        d :: (ds ++ (afterMember depth arrayEnd (xs.map text) ++ rest)) := by
    rw [htext, List.cons_append]
  obtain ⟨b, hb, hvalue, -⟩ := next?_lineBreak (depth + 1) hblank hsource
  obtain ⟨r, hr, hrvalue, hrrest⟩ := hx.yields _ _ isBlank_of_mem_lineBreak
    (endsNumber_afterMember depth arrayEnd (xs.map text) rest)
  have hbne : b.value ≠ arrayEnd := by
    rw [hvalue]
    exact hne
  refine yields_readMembers hb hbne hr fun hle => ?_
  have hafter := yields_readMembersAfter (fun y hy => h y (List.mem_cons_of_mem x hy)) [r.value]
    depth hrrest hle
  rwa [List.map_cons, ← hrvalue]

/-- **Written arrays.**  An array of texts that a reader reads is read member by member. -/
theorem readBy_readArray {text : β → String} {xs : List β}
    (h : ∀ x ∈ xs, ReadBy member (encode (text x)) (value x)) (depth : Nat) :
    ReadBy (readArray member) (encode (arrayText depth (xs.map text))) (xs.map value) := by
  have hstart : isBlank arrayStart = false ∧ arrayStart ≠ arrayEnd := by decide
  have hempty : encode "[]" = [arrayStart, arrayEnd] := by decide
  have hopen : encode "[" = [arrayStart] := by decide
  have hclose : encode "]" = [arrayEnd] := by decide
  -- In both cases the text is an opening bracket before something that is read as the members.
  have hmembers : ∃ inner, encode (arrayText depth (xs.map text)) = arrayStart :: inner ∧
      ∀ rest, Yields (readMembers member (inner ++ rest)) (xs.map value) rest := by
    cases xs with
    | nil => exact ⟨[arrayEnd], hempty, yields_readMembers_nil⟩
    | cons x xs =>
      refine ⟨_, encode_block hopen hclose depth (text x) (xs.map text), fun rest => ?_⟩
      have hread := yields_readMembers_cons h depth rest
      rw [List.append_assoc, List.append_assoc, List.map_map]
      exact hread
  obtain ⟨inner, htext, hinner⟩ := hmembers
  rw [htext]
  refine ⟨⟨arrayStart, inner, rfl, hstart⟩, fun blanks rest hblanks _ => ?_⟩
  obtain ⟨b, hb, hvalue, hrest⟩ := next?_append hblanks hstart.1 (inner ++ rest)
  refine yields_readArray hb hvalue ?_
  rw [hrest]
  exact hinner rest

end VoxelLogic.Json
