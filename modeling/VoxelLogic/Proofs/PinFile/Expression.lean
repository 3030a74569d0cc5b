import VoxelLogic.PinFile.Expression
import VoxelLogic.Proofs.Catalog
import VoxelLogic.Proofs.Formula.Mask
import VoxelLogic.Proofs.Formula.Parts
import VoxelLogic.Proofs.PinFile.Rendered
import Mathlib.Data.List.Forall2

/-!
# Reading written formulas

The readers of expressions undo the writing of formulas, as far as formulas can be read.

* `readExpression_fixed`, `readArguments_leftParen` and so on: the readers, step by step.
* `Settles`: a reader has read a value and left the rest, or it has met a token that names no input.
* `Settles.bind`, `Settles.map`: what a reader settles decides what the next step settles.
* `settles_tokensOf`: a formula whose masks are read back is read back from its tokens, whatever
  follows them, exactly if it can be read.  Any other one is refused at the bracket that closes an
  empty list of arguments, or at the name that is made up for an input that has none.
* `parseExpression_tokensOf`, `parseExpression_tokensOf_eq_error`: the same for a whole line.
-/

namespace VoxelLogic.PinFile

open Text

variable {α : Type} {source : List Token}

/-- A reader that succeeds exactly if `readable` holds: then it has read a value and left the rest,
and else it has met a token that names no input. -/
structure Settles (readable : Bool) (result : Except ExpressionFault (Reading α source)) (value : α)
    (rest : List Token) : Prop where
  reads : readable = true → ∃ r, result = .ok r ∧ r.value = value ∧ r.rest = rest
  refuses : readable = false → ∃ token, result = .error (.unknownOperand token)

/-! ## Keywords -/

@[simp] theorem Head.ofText?_keyword (connective : Connective) :
    Head.ofText? connective.keyword = some (.gate connective) := by
  cases connective <;> decide

/-- No position is written like a keyword. -/
theorem Head.ofText?_token (p : Position) : Head.ofText? p.token = none := by
  have h : ∀ q ∈ Position.all, Head.ofText? q.token = none := by decide
  exact h p (Position.mem_all p)

/-- The mark of a mask is taken off. -/
theorem maskDigits?_mask (mask : Mask) :
    maskDigits? (.word ("0x" ++ mask.text)) = some mask.text.toList := by
  have htext : ("0x" ++ mask.text).toList = '0' :: 'x' :: mask.text.toList := by
    rw [String.toList_append]
    rfl
  simp only [maskDigits?, Token.text, htext]

/-- Nothing but its digits decides whether a mask is read. -/
theorem readMask_eq_ok_iff {arguments : Nat} {digits : List Char} {mask : Mask} :
    readMask arguments digits = .ok mask ↔ Mask.ofText? arguments digits = some mask := by
  constructor
  · intro h
    unfold readMask at h
    split at h
    · split at h <;> cases h
      assumption
    · cases h
  · intro h
    have hstorable : Mask.isStorable arguments = true :=
      Mask.isStorable_iff.2 (Nat.le_succ_of_le (Mask.le_of_ofText? h))
    rw [readMask, if_pos hstorable, h]

/-- The name that is made up for an input is neither a keyword nor a position. -/
theorem ofText?_madeUp (place : Nat) :
    Head.ofText? ("i" ++ toString place) = none ∧
      Position.ofToken? ("i" ++ toString place) = none := by
  have hcapitals : (capitals ("i" ++ toString place)).toList =
      'I' :: (toString place).toList.map Char.toUpper := by
    rw [capitals, String.toList_ofList, String.toList_append]
    rfl
  constructor
  · have hne : ∀ keyword : String, keyword.toList.head? ≠ some 'I' →
        capitals ("i" ++ toString place) ≠ keyword := by
      rintro keyword hkeyword rfl
      exact hkeyword (by rw [hcapitals, List.head?_cons])
    have hconnective : Connective.ofKeyword? ("i" ++ toString place) = none := by
      rw [Connective.ofKeyword?, List.find?_eq_none]
      intro connective _ heq
      exact hne connective.keyword (by cases connective <;> decide) (beq_iff_eq.1 heq).symm
    unfold Head.ofText?
    split
    case h_12 => rw [hconnective]; rfl
    all_goals
      rename_i heq
      exact absurd heq (hne _ (by decide))
  · rw [Position.ofToken?, List.find?_eq_none]
    intro p hp heq
    have hall : ∀ q ∈ Position.all, q.token.toList.head? ≠ some 'i' := by decide
    refine hall p hp ?_
    rw [beq_iff_eq.1 heq, String.toList_append]
    rfl

/-! ## The readers in steps -/

section Steps

variable {place? : Position → Option Nat} {token hex : Token} {rest : List Token}

theorem readExpression_operand (h : Head.ofText? token.text = none) :
    readExpression place? (token :: rest) =
      (operand place? token).map fun e => .ofHead e token rest := by
  unfold readExpression
  rw [h]
  cases operand place? token <;> rfl

theorem readExpression_const {value : Bool} (h : Head.ofText? token.text = some (.const value)) :
    readExpression place? (token :: rest) = .ok (.ofHead (.const value) token rest) := by
  unfold readExpression
  rw [h]

theorem readExpression_fixed {gate : FixedGate} (h : Head.ofText? token.text = some (.fixed gate)) :
    readExpression place? (token :: rest) =
      (readArguments place? rest).bind fun r =>
        match gate.formula? r.value with
        | none => .error (.arity gate r.value.length)
        | some e => .ok ((r.map fun _ => e).afterHead token) := by
  unfold readExpression
  rw [h]
  cases readArguments place? rest <;> rfl

theorem readExpression_gate {connective : Connective}
    (h : Head.ofText? token.text = some (.gate connective)) :
    readExpression place? (token :: rest) =
      (readArguments place? rest).map fun r => (r.map (.gate connective)).afterHead token := by
  unfold readExpression
  rw [h]
  cases readArguments place? rest <;> rfl

theorem readExpression_lookUp (h : Head.ofText? token.text = some .lookUp) {digits : List Char}
    (hdigits : maskDigits? hex = some digits) :
    readExpression place? (token :: hex :: rest) =
      (readArguments place? rest).bind fun r =>
        (readMask r.value.length digits).map fun mask =>
          ((r.map (.lookUp mask)).afterHead hex).afterHead token := by
  unfold readExpression
  simp only [h, hdigits]
  cases readArguments place? rest with
  | error fault => rfl
  | ok r =>
    simp only [Except.bind]
    cases readMask r.value.length digits <;> rfl

/-- An expression and the arguments after it. -/
def readAllArguments (place? : Position → Option Nat) (source : List Token) :
    Except ExpressionFault (Reading (List Formula) source) :=
  (readExpression place? source).bind fun first =>
    (readMoreArguments place? first.rest).map fun more =>
      first.after (more.map (first.value :: ·))

theorem readArguments_leftParen :
    readArguments place? (.leftParen :: rest) =
      (readAllArguments place? rest).map (·.afterHead .leftParen) := by
  unfold readArguments readAllArguments
  cases readExpression place? rest with
  | error fault => rfl
  | ok first =>
    simp only [Except.bind]
    cases readMoreArguments place? first.rest <;> rfl

theorem readMoreArguments_comma :
    readMoreArguments place? (.comma :: rest) =
      (readAllArguments place? rest).map (·.afterHead .comma) := by
  unfold readMoreArguments readAllArguments
  cases readExpression place? rest with
  | error fault => rfl
  | ok first =>
    simp only [Except.bind]
    cases readMoreArguments place? first.rest <;> rfl

end Steps

/-! ## What the steps settle -/

section Settles

variable {β : Type} {place? : Position → Option Nat} {token hex : Token} {es : List Formula}
  {whole middle rest : List Token} {readable moreReadable : Bool}

theorem settles_ok {r : Reading α source} {value : α} (hvalue : r.value = value)
    (hrest : r.rest = rest) : Settles true (.ok r) value rest := by
  constructor
  · intro _
    exact ⟨r, rfl, hvalue, hrest⟩
  · intro h
    cases h

theorem settles_error (token : Token) (value : α) :
    Settles false (.error (.unknownOperand token) : Except _ (Reading α source)) value rest := by
  constructor
  · intro h
    cases h
  · intro _
    exact ⟨token, rfl⟩

variable {result : Except ExpressionFault (Reading α source)} {value : α}

/-- A step that goes on from what was read. -/
theorem Settles.bind (h : Settles readable result value middle)
    {f : Reading α source → Except ExpressionFault (Reading β whole)} {last : β}
    (hstep : readable = true → ∀ r, r.value = value → r.rest = middle →
      Settles moreReadable (f r) last rest) :
    Settles (readable && moreReadable) (result.bind f) last rest := by
  cases hreadable : readable with
  | false =>
    obtain ⟨found, hfound⟩ := h.refuses hreadable
    rw [hfound]
    exact settles_error found last
  | true =>
    obtain ⟨r, hr, hvalue, hrest⟩ := h.reads hreadable
    rw [hr, Bool.true_and]
    exact hstep hreadable r hvalue hrest

/-- A step that keeps what is left. -/
theorem Settles.map (h : Settles readable result value rest)
    {f : Reading α source → Reading β whole} {last : β}
    (hvalue : ∀ r, r.value = value → (f r).value = last) (hrest : ∀ r, (f r).rest = r.rest) :
    Settles readable (result.map f) last rest := by
  have hbind : result.map f = result.bind fun r => .ok (f r) := by
    cases result <;> rfl
  rw [hbind, ← Bool.and_true readable]
  exact h.bind fun _ r hr hleft => settles_ok (hvalue r hr) ((hrest r).trans hleft)

theorem settles_const {value : Bool} (hhead : Head.ofText? token.text = some (.const value)) :
    Settles true (readExpression place? (token :: rest)) (.const value) rest := by
  rw [readExpression_const hhead]
  exact settles_ok rfl rfl

/-- An input is read at the place of its position. -/
theorem settles_input {p : Position} {place : Nat} (htoken : token.text = p.token)
    (hplace : place? p = some place) :
    Settles true (readExpression place? (token :: rest)) (.input place) rest := by
  rw [readExpression_operand (htoken ▸ Head.ofText?_token p)]
  simp only [operand, htoken, Position.ofToken?_token, hplace]
  exact settles_ok rfl rfl

/-- A token that is neither a keyword nor a position is refused. -/
theorem settles_unknown (hhead : Head.ofText? token.text = none)
    (hposition : Position.ofToken? token.text = none) (value : Formula) :
    Settles false (readExpression place? (token :: rest)) value rest := by
  rw [readExpression_operand hhead]
  simp only [operand, hposition]
  exact settles_error token value

theorem Settles.fixed {gate : FixedGate} {e : Formula}
    (h : Settles readable (readArguments place? source) es rest)
    (hhead : Head.ofText? token.text = some (.fixed gate)) (he : gate.formula? es = some e) :
    Settles readable (readExpression place? (token :: source)) e rest := by
  rw [readExpression_fixed hhead, ← Bool.and_true readable]
  refine h.bind fun _ r hvalue hrest => ?_
  rw [hvalue, he]
  exact settles_ok rfl hrest

theorem Settles.gate {connective : Connective}
    (h : Settles readable (readArguments place? source) es rest)
    (hhead : Head.ofText? token.text = some (.gate connective)) :
    Settles readable (readExpression place? (token :: source)) (.gate connective es) rest := by
  rw [readExpression_gate hhead]
  exact h.map (fun r hvalue => congrArg (Formula.gate connective) hvalue) fun _ => rfl

theorem Settles.lookUp {mask : Mask} (h : Settles readable (readArguments place? source) es rest)
    (hhead : Head.ofText? token.text = some .lookUp) {digits : List Char}
    (hhex : maskDigits? hex = some digits)
    (hmask : readable = true → readMask es.length digits = .ok mask) :
    Settles readable (readExpression place? (token :: hex :: source)) (.lookUp mask es) rest := by
  rw [readExpression_lookUp hhead hhex, ← Bool.and_true readable]
  refine h.bind fun hreadable r hvalue hrest => ?_
  rw [hvalue, hmask hreadable]
  exact settles_ok (congrArg (Formula.lookUp mask) hvalue) hrest

theorem settles_moreNil :
    Settles true (readMoreArguments place? (.rightParen :: rest)) [] rest := by
  unfold readMoreArguments
  exact settles_ok rfl rfl

/-- An expression and the arguments after it. -/
theorem Settles.allArguments {e : Formula}
    (hfirst : Settles readable (readExpression place? source) e middle)
    (hmore : Settles moreReadable (readMoreArguments place? middle) es rest) :
    Settles (readable && moreReadable) (readAllArguments place? source) (e :: es) rest := by
  refine hfirst.bind fun _ first hvalue hmiddle => ?_
  subst hmiddle
  exact hmore.map (fun r hr => congrArg₂ List.cons hvalue hr) fun _ => rfl

theorem Settles.more {e : Formula}
    (hfirst : Settles readable (readExpression place? source) e middle)
    (hmore : Settles moreReadable (readMoreArguments place? middle) es rest) :
    Settles (readable && moreReadable) (readMoreArguments place? (.comma :: source)) (e :: es)
      rest := by
  rw [readMoreArguments_comma]
  exact (hfirst.allArguments hmore).map (fun _ hvalue => hvalue) fun _ => rfl

theorem Settles.arguments {e : Formula}
    (hfirst : Settles readable (readExpression place? source) e middle)
    (hmore : Settles moreReadable (readMoreArguments place? middle) es rest) :
    Settles (readable && moreReadable) (readArguments place? (.leftParen :: source)) (e :: es)
      rest := by
  rw [readArguments_leftParen]
  exact (hfirst.allArguments hmore).map (fun _ hvalue => hvalue) fun _ => rfl

/-- Brackets without arguments are refused at the closing one. -/
theorem settles_noArguments :
    Settles false (readArguments place? (.leftParen :: .rightParen :: rest)) es rest := by
  have hclosed : Settles false (readExpression place? (.rightParen :: rest)) (.const false) rest :=
    settles_unknown (by decide) (by decide) _
  obtain ⟨found, hfound⟩ := hclosed.refuses rfl
  rw [readArguments_leftParen, readAllArguments, hfound]
  exact settles_error found es

end Settles

/-! ## Arguments -/

variable {place? : Position → Option Nat} {es : List Formula} {parts : List (List Token)}
  {reads : Formula → Bool}

/-- Arguments after the first. -/
theorem settles_moreTokens
    (h : List.Forall₂ (fun x e => ∀ rest, Settles (reads e)
      (readExpression place? (x ++ rest)) e rest) parts es) (rest : List Token) :
    Settles (es.all reads) (readMoreArguments place? (moreTokens parts ++ rest)) es rest := by
  induction h with
  | nil => exact settles_moreNil
  | cons hfirst _ ih =>
    rw [moreTokens, List.cons_append, List.append_assoc, List.all_cons]
    exact (hfirst _).more ih

/-- Arguments in brackets. -/
theorem settles_enclosed
    (h : List.Forall₂ (fun x e => ∀ rest, Settles (reads e)
      (readExpression place? (x ++ rest)) e rest) parts es) (rest : List Token) :
    Settles (!es.isEmpty && es.all reads) (readArguments place? (enclosed parts ++ rest)) es
      rest := by
  cases h with
  | nil => exact settles_noArguments
  | cons hfirst hmore =>
    rw [enclosed, List.cons_append, List.append_assoc]
    exact (hfirst _).arguments (settles_moreTokens hmore rest)

/-! ## Whole formulas -/

variable {inputs : List Position} {word : String}

/-- The tokens of a formula over the positions of inputs. -/
abbrev tokensOver (inputs : List Position) (e : Formula) : List Token :=
  tokensOf (inputs.map Position.token) e

/-- The arguments of a gate. -/
theorem settles_argumentsOver
    (h : ∀ e ∈ es, ∀ rest, Settles (e.isReadable inputs.length)
      (readExpression inputs.idxOf? (tokensOver inputs e ++ rest)) e rest) (rest : List Token) :
    Settles (!es.isEmpty && Formula.allReadable inputs.length es)
      (readArguments inputs.idxOf? (enclosed (es.map (tokensOver inputs)) ++ rest)) es rest := by
  rw [Formula.allReadable_eq_all]
  exact settles_enclosed (List.forall₂_map_left_iff.2 (List.forall₂_same.2 h)) rest

/-- A gate of a fixed number of arguments. -/
theorem settles_fixedGate {gate : FixedGate} {e : Formula}
    (hhead : Head.ofText? word = some (.fixed gate)) (he : gate.formula? es = some e)
    (h : ∀ x ∈ es, ∀ rest, Settles (x.isReadable inputs.length)
      (readExpression inputs.idxOf? (tokensOver inputs x ++ rest)) x rest) (rest : List Token) :
    Settles (!es.isEmpty && Formula.allReadable inputs.length es)
      (readExpression inputs.idxOf? (.word word :: enclosed (es.map (tokensOver inputs)) ++ rest)) e
      rest := by
  rw [List.cons_append]
  exact (settles_argumentsOver h rest).fixed hhead he

/-- A gate of three arguments. -/
theorem settles_three {gate : FixedGate} {x y z e : Formula}
    (hhead : Head.ofText? word = some (.fixed gate)) (he : gate.formula? [x, y, z] = some e)
    (hx : ∀ rest, Settles (x.isReadable inputs.length)
      (readExpression inputs.idxOf? (tokensOver inputs x ++ rest)) x rest)
    (hy : ∀ rest, Settles (y.isReadable inputs.length)
      (readExpression inputs.idxOf? (tokensOver inputs y ++ rest)) y rest)
    (hz : ∀ rest, Settles (z.isReadable inputs.length)
      (readExpression inputs.idxOf? (tokensOver inputs z ++ rest)) z rest) (rest : List Token) :
    Settles (x.isReadable inputs.length && y.isReadable inputs.length &&
        z.isReadable inputs.length)
      (readExpression inputs.idxOf?
        (.word word :: enclosed [tokensOver inputs x, tokensOver inputs y, tokensOver inputs z] ++
          rest)) e rest := by
  have hes : ∀ a ∈ [x, y, z], ∀ rest, Settles (a.isReadable inputs.length)
      (readExpression inputs.idxOf? (tokensOver inputs a ++ rest)) a rest := by
    intro a ha
    simp only [List.mem_cons, List.not_mem_nil, or_false] at ha
    rcases ha with rfl | rfl | rfl
    · exact hx
    · exact hy
    · exact hz
  have hreadable : (x.isReadable inputs.length && y.isReadable inputs.length &&
      z.isReadable inputs.length) =
      (!(List.isEmpty [x, y, z]) && Formula.allReadable inputs.length [x, y, z]) := by
    simp [Formula.allReadable, Bool.and_assoc]
  have hgate := settles_fixedGate hhead he hes rest
  rw [hreadable]
  exact hgate

/-- **Reading what was written.**  The tokens of a formula whose masks are read back are read back
as the formula, and what follows them is left, exactly if the formula can be read.  The mask of a
table without arguments is never looked at, because the brackets are refused before. -/
theorem settles_tokensOf (hinputs : inputs.Nodup) {e : Formula} (hmasks : e.MasksReadBack)
    (rest : List Token) :
    Settles (e.isReadable inputs.length)
      (readExpression inputs.idxOf? (tokensOver inputs e ++ rest)) e rest := by
  induction e generalizing rest with
  | const value =>
    cases value with
    | false => exact settles_const (by decide)
    | true => exact settles_const (by decide)
  | input place =>
    rcases Nat.lt_or_ge place inputs.length with hlt | hge
    · have hname : Formula.inputName (inputs.map Position.token) place =
          inputs[place].token := by
        rw [Formula.inputName, List.getElem?_map, List.getElem?_eq_getElem hlt, Option.map_some,
          Option.getD_some]
      have htoken : (Token.word inputs[place].token).text = inputs[place].token := rfl
      have hplace : inputs.idxOf? inputs[place] = some place := by
        rw [idxOf?_eq_some_of_mem (List.getElem_mem hlt),
          List.Nodup.idxOf_getElem hinputs place hlt]
      rw [tokensOver, tokensOf, hname, Formula.isReadable, decide_eq_true hlt]
      exact settles_input htoken hplace
    · have hname : Formula.inputName (inputs.map Position.token) place =
          "i" ++ toString place := by
        rw [Formula.inputName, List.getElem?_map, List.getElem?_eq_none hge, Option.map_none,
          Option.getD_none]
      obtain ⟨hhead, hposition⟩ := ofText?_madeUp place
      have htoken : (Token.word ("i" ++ toString place)).text = "i" ++ toString place := rfl
      rw [← htoken] at hhead hposition
      rw [tokensOver, tokensOf, hname, Formula.isReadable, decide_eq_false (Nat.not_lt.2 hge)]
      exact settles_unknown hhead hposition _
  | not e ih =>
    have hes : ∀ x ∈ [e], ∀ rest, Settles (x.isReadable inputs.length)
        (readExpression inputs.idxOf? (tokensOver inputs x ++ rest)) x rest := by
      intro x hx rest
      obtain rfl := List.mem_singleton.1 hx
      exact ih (hmasks.of_mem_arguments List.mem_cons_self) rest
    have hreadable : (Formula.not e).isReadable inputs.length =
        (!([e] : List Formula).isEmpty && Formula.allReadable inputs.length [e]) := by
      simp [Formula.isReadable, Formula.allReadable]
    have hhead : Head.ofText? "NOT" = some (.fixed .not) := by decide
    have hgate := settles_fixedGate (e := .not e) hhead rfl hes rest
    rw [hreadable, tokensOver, tokensOf]
    exact hgate
  | gate connective es ih =>
    have hes := settles_argumentsOver
      (fun e he => ih e he (hmasks.of_mem_arguments he)) rest
    rw [tokensOver, tokensOf, tokensOfAll_eq_map, List.cons_append, Formula.isReadable]
    exact hes.gate (Head.ofText?_keyword connective)
  | mux s x y ihs ihx ihy =>
    have hhead : Head.ofText? "MUX" = some (.fixed .mux) := by decide
    rw [tokensOver, tokensOf, Formula.isReadable]
    obtain ⟨hs, hx, hy⟩ := Formula.forall_mem_three.1 fun _ => hmasks.of_mem_arguments
    exact settles_three hhead rfl (ihs hs) (ihx hx) (ihy hy) rest
  | majority x y z ihx ihy ihz =>
    have hhead : Head.ofText? "MAJ" = some (.fixed .majority) := by decide
    rw [tokensOver, tokensOf, Formula.isReadable]
    obtain ⟨hx, hy, hz⟩ := Formula.forall_mem_three.1 fun _ => hmasks.of_mem_arguments
    exact settles_three hhead rfl (ihx hx) (ihy hy) (ihz hz) rest
  | lookUp mask es ih =>
    have hes := settles_argumentsOver
      (fun e he => ih e he (hmasks.of_mem_arguments he)) rest
    rw [tokensOver, tokensOf, tokensOfAll_eq_map, List.cons_append, List.cons_append,
      Formula.isReadable]
    refine hes.lookUp (by decide) (maskDigits?_mask mask) fun hreadable => ?_
    have hne : es ≠ [] := by
      rintro rfl
      cases hreadable
    exact readMask_eq_ok_iff.2 (hmasks mask es .self hne)

/-- A formula that can be read takes all of its tokens. -/
theorem parseExpression_tokensOf (hinputs : inputs.Nodup) {e : Formula}
    (hmasks : e.MasksReadBack) (h : e.isReadable inputs.length = true) :
    parseExpression inputs.idxOf? (tokensOver inputs e) = .ok e := by
  obtain ⟨r, hr, hvalue, hrest⟩ := (settles_tokensOf hinputs hmasks []).reads h
  rw [← List.append_nil (tokensOver inputs e), parseExpression, hr]
  simp only [hrest, hvalue, if_true]

/-- A formula that cannot be read is refused. -/
theorem parseExpression_tokensOf_eq_error (hinputs : inputs.Nodup) {e : Formula}
    (hmasks : e.MasksReadBack) (h : e.isReadable inputs.length = false) :
    ∃ token, parseExpression inputs.idxOf? (tokensOver inputs e) =
      .error (.unknownOperand token) := by
  obtain ⟨token, hr⟩ := (settles_tokensOf hinputs hmasks []).refuses h
  refine ⟨token, ?_⟩
  rw [← List.append_nil (tokensOver inputs e), parseExpression, hr]

end VoxelLogic.PinFile
