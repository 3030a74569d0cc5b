import VoxelLogic.Proofs.Json.Array
import VoxelLogic.Record.Read
import VoxelLogic.Record.Write

/-!
# Written records

A record that is written as a JSON object is read back from it.

* `yields_readQuoted`: a name without quotes, backslashes and control characters is read as it is.
* `Draft.set`: a draft with one more field of a record.
* `yields_readPair`: a field of a record, with its name.
* `yields_readPairsAfter`: the remaining fields.
* `yields_readRecord`: all of them, before anything.
* `roundTrip_toJson`: texts and records.
-/

namespace VoxelLogic.Record

open Json Text

/-! ## Names -/

section Names

variable {source : List UInt8}

/-- Plain bytes are read up to the closing quote. -/
theorem yields_readQuotedAfter {text : List UInt8} (hplain : ∀ b ∈ text, isPlain b = true)
    {left rest : List UInt8} (read : List UInt8) (hleft : left = text ++ quote :: rest)
    (hle : left.length ≤ source.length) :
    Yields (readQuotedAfter source read left hle) (read.reverse ++ text) rest := by
  induction text generalizing read left with
  | nil =>
    subst hleft
    have hquote : isPlain quote = false := rfl
    simp only [List.nil_append, List.append_nil]
    rw [readQuotedAfter]
    simp only [hquote, Bool.false_eq_true, if_false, if_true]
    exact ⟨_, rfl, rfl, rfl⟩
  | cons b text ih =>
    subst hleft
    simp only [List.cons_append]
    rw [readQuotedAfter, if_pos (hplain b List.mem_cons_self)]
    have hmore := ih (fun c hc => hplain c (List.mem_cons_of_mem b hc)) (b :: read) rfl
      (Nat.le_of_succ_le hle)
    rwa [List.reverse_cons, List.append_assoc, List.singleton_append] at hmore

/-- A name of plain bytes is read as it is. -/
theorem yields_readQuoted {name : String} (hplain : ∀ b ∈ encode name, isPlain b = true)
    (rest : List UInt8) :
    Yields (readQuoted (encode name ++ quote :: rest)) (encode name) rest := by
  obtain ⟨r, hr, hvalue, hrest⟩ :=
    yields_readQuotedAfter hplain [] rfl (length_le_self (encode name ++ quote :: rest))
  rw [List.reverse_nil, List.nil_append] at hvalue
  have hdecoded : String.fromUTF8? r.value.toByteArray = some name := by
    rw [hvalue]
    exact decode?_encode name
  refine ⟨r, ?_, hvalue, hrest⟩
  unfold readQuoted
  simp only [hr, hdecoded, Option.isSome_some, if_true]

end Names

/-! ## Values of fields -/

/-- A draft with one more field of a record. -/
def Draft.set (d : Draft) (r : Record) : Field → Draft
  | .inputRemap => { d with inputRemap := some r.inputRemap }
  | .outputRemap => { d with outputRemap := some r.outputRemap }
  | .inputTypes => { d with inputTypes := some r.inputTypes }
  | .outputTypes => { d with outputTypes := some r.outputTypes }
  | .groups => { d with groups := some r.groups }

@[simp] theorem Draft.has_set (d : Draft) (r : Record) (f g : Field) :
    (d.set r f).has g = (f == g || d.has g) := by
  cases f <;> cases g <;> rfl

/-- All fields of a record are the record. -/
theorem Draft.record?_set_all (r : Record) :
    (Field.all.foldl (fun d f => d.set r f) Draft.empty).record? = some r := rfl

/-- Numbers that are at most `largest` are read back from their array. -/
theorem readBy_numbersText {largest : Nat} (hlargest : largest < UInt64.size) {numbers : List Nat}
    (h : ∀ n ∈ numbers, n ≤ largest) (depth : Nat) :
    ReadBy (readArray (readNatural largest)) (encode (numbersText depth numbers)) numbers := by
  have harray := readBy_readArray (fun n hn => readBy_readNatural hlargest (h n hn)) depth
  rwa [List.map_id'] at harray

/-- Numbers of a type with `largest` as its largest number are read back from their array. -/
theorem readBy_numbers {α : Type} {largest : Nat} (hlargest : largest < UInt64.size)
    (toNat : α → Nat) (h : ∀ x, toNat x ≤ largest) (depth : Nat) (xs : List α) :
    ReadBy (readArray (readNatural largest)) (encode (numbersText depth (xs.map toNat)))
      (xs.map toNat) := by
  refine readBy_numbersText hlargest (fun n hn => ?_) depth
  obtain ⟨x, -, rfl⟩ := List.mem_map.1 hn
  exact h x

/-- Numbers that are read back from their array can be stored. -/
theorem yields_storeNumbers {α β : Type} {largest : Nat} (hlargest : largest < UInt64.size)
    {toNat : α → Nat} {ofNat : Nat → α} (h : ∀ x, toNat x ≤ largest)
    (hinverse : Function.LeftInverse ofNat toNat) (xs : List α) (store : List α → β)
    {blanks rest : List UInt8} (hblanks : ∀ b ∈ blanks, isBlank b = true)
    (hrest : EndsNumber rest) :
    Yields ((readArray (readNatural largest)
      (blanks ++ (encode (numbersText 1 (xs.map toNat)) ++ rest))).map fun r =>
        r.map fun ns => store (ns.map ofNat)) (store xs) rest := by
  have hread := (readBy_numbers hlargest toNat h 1 xs).yields blanks rest hblanks hrest
  have hstored := yields_map hread fun ns => store (ns.map ofNat)
  rwa [hinverse.list_map] at hstored

/-- The value of a field is read back from its text. -/
theorem yields_readField (r : Record) (d : Draft) (f : Field) {blanks rest : List UInt8}
    (hblanks : ∀ b ∈ blanks, isBlank b = true) (hrest : EndsNumber rest) :
    Yields (readField d f (blanks ++ (encode (r.fieldValue f) ++ rest))) (d.set r f) rest := by
  have hword : ∀ n : UInt32, n.toNat ≤ UInt32.size - 1 := fun n => Nat.le_pred_of_lt n.toNat_lt
  have hbyte : ∀ n : UInt8, n.toNat ≤ UInt8.size - 1 := fun n => Nat.le_pred_of_lt n.toNat_lt
  have hrow : ∀ row : PackedRow, row.toNat ≤ UInt64.size - 1 :=
    fun row => Nat.le_pred_of_lt row.isLt
  have hwords : Function.LeftInverse UInt32.ofNat UInt32.toNat := fun _ => UInt32.ofNat_toNat
  have hbytes : Function.LeftInverse UInt8.ofNat UInt8.toNat := fun _ => UInt8.ofNat_toNat
  have hrows : Function.LeftInverse (BitVec.ofNat 64) BitVec.toNat := BitVec.ofNat_toNat 64
  cases f with
  | inputRemap =>
    exact yields_storeNumbers (by decide) hword hwords r.inputRemap
      (fun ns => { d with inputRemap := some ns }) hblanks hrest
  | outputRemap =>
    exact yields_storeNumbers (by decide) hword hwords r.outputRemap
      (fun ns => { d with outputRemap := some ns }) hblanks hrest
  | inputTypes =>
    exact yields_storeNumbers (by decide) hbyte hbytes r.inputTypes
      (fun ns => { d with inputTypes := some ns }) hblanks hrest
  | outputTypes =>
    exact yields_storeNumbers (by decide) hbyte hbytes r.outputTypes
      (fun ns => { d with outputTypes := some ns }) hblanks hrest
  | groups =>
    have hgroups := readBy_readArray
      (fun group (_ : group ∈ r.groups) => readBy_numbers (by decide) _ hrow 2 group) 1
    have hread := hgroups.yields blanks rest hblanks hrest
    have hfield := yields_map hread fun groups =>
      { d with groups := some (groups.map (List.map (BitVec.ofNat 64))) }
    rwa [hrows.list_map.list_map] at hfield

/-! ## Objects -/

/-- The bytes of a field with its name, from behind the opening quote. -/
def namedBytes (r : Record) (f : Field) : List UInt8 :=
  encode f.name ++ quote :: colon :: 0x20 :: encode (r.fieldValue f)

theorem encode_fieldText (r : Record) (f : Field) :
    encode (fieldText f.name (r.fieldValue f)) = quote :: namedBytes r f := by
  have hopen : encode "\"" = [quote] := by decide
  have hclose : encode "\": " = [quote, colon, 0x20] := by decide
  rw [fieldText, encode_append, encode_append, encode_append, hopen, hclose, namedBytes,
    List.append_assoc, List.append_assoc]
  rfl

/-- A field that is new to a draft is read into it. -/
theorem yields_readPair (r : Record) {d : Draft} {f : Field} (hnew : d.has f = false)
    {rest : List UInt8} (hrest : EndsNumber rest) :
    Yields (readPair d (namedBytes r f ++ rest)) (d.set r f) rest := by
  have hname : (encode f.name).all isPlain = true := by
    cases f <;> decide
  have hplain : ∀ b ∈ encode f.name, isPlain b = true := List.all_eq_true.1 hname
  have hspace : ∀ b ∈ [(0x20 : UInt8)], isBlank b = true := by
    intro b hb
    obtain rfl := List.mem_singleton.1 hb
    decide
  have hcolon : isBlank colon = false := rfl
  obtain ⟨name, hname, hvalue, hleft⟩ := yields_readQuoted hplain
    (colon :: 0x20 :: (encode (r.fieldValue f) ++ rest))
  have hdecoded : String.fromUTF8? name.value.toByteArray = some f.name := by
    rw [hvalue]
    exact decode?_encode f.name
  obtain ⟨c, hc, hcvalue, hcrest⟩ := next?_cons hcolon hleft
  have hfield : Yields (readField d f c.rest) (d.set r f) rest := by
    rw [hcrest]
    exact yields_readField r d f hspace hrest
  have hnamed : Yields (readNamed d f.name name.rest) (d.set r f) rest := by
    unfold readNamed readColon
    simp only [Field.ofName?_name, hnew, Bool.false_eq_true, if_false, hc, hcvalue, if_true]
    exact yields_after (c.map fun _ => ()) hfield
  have hsource : namedBytes r f ++ rest =
      encode f.name ++ quote :: colon :: 0x20 :: (encode (r.fieldValue f) ++ rest) := by
    rw [namedBytes, List.append_assoc]
    rfl
  rw [hsource]
  unfold readPair
  simp only [hname, hdecoded]
  exact yields_after name hnamed

/-- The closing brace ends the fields. -/
theorem yields_pairsEnd {source left : List UInt8} {b : Reading UInt8 left}
    (hb : next? left = some b) (hend : b.value = objectEnd) {d : Draft} {r : Record}
    (hr : d.record? = some r) (hle : left.length ≤ source.length) :
    Yields (readPairsAfter source d left hle) r b.rest := by
  unfold Yields readPairsAfter
  simp only [hb, hend, if_true, hr]
  exact ⟨_, rfl, rfl, rfl⟩

/-- A comma is followed by another field. -/
theorem yields_pairsMore {source left : List UInt8} {b : Reading UInt8 left}
    (hb : next? left = some b) (hcomma : b.value = comma) {c : Reading UInt8 b.rest}
    (hc : next? b.rest = some c) (hquote : c.value = quote) {d : Draft} {p : Reading Draft c.rest}
    (hp : readPair d c.rest = .ok p) {r : Record} {rest : List UInt8}
    (hmore : ∀ hle, Yields (readPairsAfter source p.value p.rest hle) r rest)
    (hle : left.length ≤ source.length) :
    Yields (readPairsAfter source d left hle) r rest := by
  have hopen : comma ≠ objectEnd := by decide
  unfold readPairsAfter
  simp only [hb, hcomma, if_neg hopen, if_true, hc, hquote, hp]
  exact hmore _

/-- The fields of a record after the first.  The induction is on the fields that are still to come,
which are all new to the draft. -/
theorem yields_readPairsAfter (r : Record) {fs : List Field} (hnodup : fs.Nodup) {d : Draft}
    (hnew : ∀ f ∈ fs, d.has f = false) {result : Record}
    (hresult : (fs.foldl (fun d f => d.set r f) d).record? = some result)
    {source left rest : List UInt8}
    (hleft : left = afterMember 0 objectEnd (fs.map fun f => quote :: namedBytes r f) ++ rest)
    (hle : left.length ≤ source.length) :
    Yields (readPairsAfter source d left hle) result rest := by
  induction fs generalizing d left with
  | nil =>
    have hblank : isBlank objectEnd = false := rfl
    rw [List.map_nil, afterMember_nil] at hleft
    obtain ⟨b, hb, hvalue, hrest⟩ := next?_lineBreak 0 hblank hleft
    have hclosed := yields_pairsEnd hb hvalue hresult hle
    rwa [hrest] at hclosed
  | cons f fs ih =>
    obtain ⟨hf, hfs⟩ := List.nodup_cons.1 hnodup
    have hcomma : isBlank comma = false := rfl
    have hquote : isBlank quote = false := rfl
    rw [List.map_cons, afterMember_cons, List.cons_append] at hleft
    obtain ⟨b, hb, hvalue, hrest⟩ := next?_cons hcomma hleft
    obtain ⟨c, hc, hcvalue, hcrest⟩ := next?_lineBreak 1 hquote hrest
    have hpair : Yields (readPair d c.rest) (d.set r f)
        (afterMember 0 objectEnd (fs.map fun f => quote :: namedBytes r f) ++ rest) := by
      rw [hcrest]
      exact yields_readPair r (hnew f List.mem_cons_self) (endsNumber_afterMember 0 _ _ rest)
    obtain ⟨p, hp, hpvalue, hprest⟩ := hpair
    have hnew' : ∀ g ∈ fs, p.value.has g = false := by
      intro g hg
      have hne : f ≠ g := fun heq => hf (heq ▸ hg)
      rw [hpvalue, Draft.has_set, hnew g (List.mem_cons_of_mem f hg), Bool.or_false]
      exact beq_false_of_ne hne
    refine yields_pairsMore hb hvalue hc hcvalue hp (fun hle' => ?_) hle
    refine ih hfs hnew' ?_ hprest hle'
    rwa [hpvalue]

/-- All fields of a record, from behind the opening brace. -/
theorem yields_readObject (r : Record) {source rest : List UInt8}
    (hsource : source = lineBreak 1 ++ quote :: (namedBytes r .inputRemap ++
      (afterMember 0 objectEnd (Field.all.tail.map fun f => quote :: namedBytes r f) ++ rest))) :
    Yields (readObject source) r rest := by
  have hquote : isBlank quote = false ∧ quote ≠ objectEnd := by decide
  obtain ⟨b, hb, hvalue, hrest⟩ := next?_lineBreak 1 hquote.1 hsource
  have hpair : Yields (readPair .empty b.rest) (Draft.empty.set r .inputRemap)
      (afterMember 0 objectEnd (Field.all.tail.map fun f => quote :: namedBytes r f) ++ rest) := by
    rw [hrest]
    exact yields_readPair r rfl (endsNumber_afterMember 0 _ _ rest)
  obtain ⟨p, hp, hpvalue, hprest⟩ := hpair
  have hnew : ∀ f ∈ Field.all.tail, p.value.has f = false := by
    rw [hpvalue]
    intro f hf
    rw [Draft.has_set]
    revert f
    decide
  have hresult : (Field.all.tail.foldl (fun d f => d.set r f) p.value).record? = some r := by
    rw [hpvalue]
    exact Draft.record?_set_all r
  unfold readObject
  simp only [hb, hvalue, if_neg hquote.2, if_true, hp]
  exact yields_readPairsAfter r (by decide) hnew hresult hprest _

/-- The text of a record, field by field. -/
theorem encode_toJson (r : Record) :
    encode r.toJson = objectStart :: (lineBreak 1 ++ quote :: (namedBytes r .inputRemap ++
      afterMember 0 objectEnd (Field.all.tail.map fun f => quote :: namedBytes r f))) := by
  have hopen : encode "\x7b" = [objectStart] := by decide
  have hclose : encode "\x7d" = [objectEnd] := by decide
  have hblock := encode_block hopen hclose 0 (fieldText Field.inputRemap.name
    (r.fieldValue .inputRemap)) (Field.all.tail.map fun f => fieldText f.name (r.fieldValue f))
  rw [List.map_map, encode_fieldText] at hblock
  simp only [Function.comp_def, encode_fieldText] at hblock
  exact hblock

/-- A record is read from the front of every text that starts with its own. -/
theorem yields_readRecord (r : Record) (rest : List UInt8) :
    Yields (readRecord (encode r.toJson ++ rest)) r rest := by
  have hstart : isBlank objectStart = false := rfl
  have hsource : encode r.toJson ++ rest = objectStart :: (lineBreak 1 ++ quote ::
      (namedBytes r .inputRemap ++ (afterMember 0 objectEnd
        (Field.all.tail.map fun f => quote :: namedBytes r f) ++ rest))) := by
    rw [encode_toJson]
    simp only [List.cons_append, List.append_assoc]
  obtain ⟨b, hb, hvalue, hleft⟩ := next?_cons hstart hsource
  unfold readRecord
  simp only [hb, hvalue, if_true]
  exact yields_after b (yields_readObject r hleft)

/-- Blanks may follow a record, and nothing else. -/
theorem ofJson_toJson_append (r : Record) (rest : List UInt8) :
    ofJson (encode r.toJson ++ rest) = if rest.all isBlank then .ok r else .error .malformed := by
  obtain ⟨result, hresult, hvalue, hleft⟩ := yields_readRecord r rest
  unfold ofJson
  simp only [hresult, hvalue, List.all_eq_true, ← next?_eq_none_iff, ← hleft]
  cases next? result.rest with
  | none => rfl
  | some b => rfl

/-- A record is read back from its text. -/
theorem ofJson_toJson (r : Record) : ofJson (encode r.toJson) = .ok r := by
  have hread := ofJson_toJson_append r []
  rwa [List.append_nil] at hread

/-- **Written records.**  A record is read back from its text, and the record that is read has the
same text.  Anything after that text but blanks is refused.  A text in any other layout may be
replaced by the text of its record: it is read as before, and the replacement stays as it is. -/
theorem roundTrip_toJson :
    (∀ r : Record, ∃ again, ofJson (encode r.toJson) = .ok again ∧ again = r ∧
      encode again.toJson = encode r.toJson) ∧
    (∀ (r : Record) (rest : List UInt8), ofJson (encode r.toJson ++ rest) =
      if rest.all isBlank then .ok r else .error .malformed) ∧
    ∀ content r, ofJson content = .ok r → ofJson (encode r.toJson) = ofJson content := by
  refine ⟨fun r => ⟨r, ofJson_toJson r, rfl, rfl⟩, ofJson_toJson_append, fun content r hread => ?_⟩
  rw [hread, ofJson_toJson]

/-- A record with the largest number of every field and with groups without rows. -/
def crowded : Record where
  inputRemap := [4294967295, 0]
  outputRemap := []
  inputTypes := [255]
  outputTypes := [0, 9]
  groups := [[], [18446744073709551615, 0], []]

/-- That record is read back from its text, whatever layout it came in. -/
theorem roundTrip_toJson_crowded :
    (∃ again, ofJson (encode crowded.toJson) = .ok again ∧ again = crowded ∧
      encode again.toJson = encode crowded.toJson) ∧
    ofJson (encode crowded.toJson ++ [lineFeed, arrayEnd]) = .error .malformed ∧
    ofJson (encode crowded.toJson) = ofJson (encode
      "[[4294967295,0], [],[255] ,[0,9],[[],[18446744073709551615,0],[]]]") := by
  obtain ⟨hround, hmore, hlayout⟩ := roundTrip_toJson
  refine ⟨hround crowded, ?_, hlayout _ crowded (by decide +kernel)⟩
  rw [hmore]
  rfl

end VoxelLogic.Record
