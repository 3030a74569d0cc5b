import VoxelLogic.Proofs.PinFile.Grammar

/-!
# Letter case of tokens

Keywords are read in any letter case, and so are the digits of a mask.  Positions are read as they
stand.  Two lists of tokens that differ in such letter case only are followed here side by side
through the readers of expressions: either both are refused, or the same formula is read.  No token
whose letter case may change can be taken for a position, and none for a mask that it is not.

* `Token.Respells`: two tokens differ in the letter case of a keyword or of a mask at most.
* `Alike`: two computations fail for reasons of one kind, or have related values.
* `ReadAlike`: the readers end alike on lists up to some length, with one lemma for each reader
  (`ReadAlike.readExpression_cons`, `ReadAlike.readArguments_cons`,
  `ReadAlike.readMoreArguments_cons`).
* `readAlike`, `alike_parseExpression`: they end alike on all lists.
-/

namespace VoxelLogic.PinFile

open Text

/-! ## Tokens that are read in any letter case -/

/-- The words that are read in any letter case, in capitals. -/
def foldedWords : List String :=
  ["INPUT", "OUTPUT", "POWER", "GND", "VSS", "VDD", "NOT", "BUF", "BUFF", "MUX", "MAJ", "LUT",
    "AND", "OR", "NAND", "NOR", "XOR", "XNOR"]

/-- Two tokens are the same up to the letter case of a keyword, or of the digits of a mask behind
the mark `0x`. -/
inductive Token.Respells : Token → Token → Prop where
  | same (token : Token) : Respells token token
  | keyword {s t : String} (h : capitals s = capitals t) (hs : capitals s ∈ foldedWords) :
    Respells (.word s) (.word t)
  | mask {ds es : List Char} (h : ds.map Char.toUpper = es.map Char.toUpper) :
    Respells (.word (String.ofList ('0' :: 'x' :: ds))) (.word (String.ofList ('0' :: 'x' :: es)))

theorem Head.ofText?_congr {s t : String} (h : capitals s = capitals t) :
    Head.ofText? s = Head.ofText? t := by
  simp only [Head.ofText?, Connective.ofKeyword?, h]

/-- A word that is read in any letter case is no position. -/
theorem ofToken?_of_mem_foldedWords {text : String} (h : capitals text ∈ foldedWords) :
    Position.ofToken? text = none := by
  have hall : ∀ p ∈ Position.all, capitals p.token ∉ foldedWords := by decide
  rw [Option.eq_none_iff_forall_ne_some]
  intro p hp
  rw [← Position.token_of_ofToken? hp] at h
  exact hall p (Position.mem_all p) h

/-- A word that begins with a zero is no position. -/
theorem ofToken?_of_zero (cs : List Char) :
    Position.ofToken? (String.ofList ('0' :: cs)) = none := by
  have hall : ∀ p ∈ Position.all, p.token.toList.head? ≠ some '0' := by decide
  rw [Option.eq_none_iff_forall_ne_some]
  intro p hp
  have hhead := hall p (Position.mem_all p)
  rw [Position.token_of_ofToken? hp, String.toList_ofList] at hhead
  exact hhead rfl

/-- A word that is read in any letter case does not begin with a zero, so it is no mask. -/
theorem maskDigits?_of_mem_foldedWords {text : String} (h : capitals text ∈ foldedWords) :
    maskDigits? (.word text) = none := by
  have hall : ∀ word ∈ foldedWords, word.toList.head? ≠ some '0' := by decide
  rw [Option.eq_none_iff_forall_ne_some]
  intro digits hdigits
  have htext : text.toList = '0' :: 'x' :: digits := maskDigits?_eq_some_iff.1 hdigits
  refine hall _ h ?_
  rw [capitals, String.toList_ofList, htext]
  rfl

namespace Token.Respells

variable {x y : Token}

theorem symm (h : x.Respells y) : y.Respells x := by
  cases h with
  | same => exact .same _
  | keyword h hs => exact .keyword h.symm (h ▸ hs)
  | mask h => exact .mask h.symm

/-- Respelled tokens have the same capitals. -/
theorem capitals_eq (h : x.Respells y) : capitals x.text = capitals y.text := by
  cases h with
  | same => rfl
  | keyword h => exact h
  | mask h => simp only [Token.text, capitals, String.toList_ofList, List.map_cons, h]

/-- Only words are respelled. -/
theorem eq_or_words (h : x.Respells y) : x = y ∨ ∃ s t, x = .word s ∧ y = .word t := by
  cases h with
  | same => exact .inl rfl
  | keyword => exact .inr ⟨_, _, rfl, rfl⟩
  | mask => exact .inr ⟨_, _, rfl, rfl⟩

/-- A mark is not respelled. -/
theorem eq_of_mark (h : x.Respells y) (hx : ∀ s, x ≠ .word s) : y = x := by
  rcases h.eq_or_words with rfl | ⟨s, t, rfl, rfl⟩
  · rfl
  · exact absurd rfl (hx s)

/-- **No respelled token is a position.** -/
theorem eq_or_ofToken?_eq_none (h : x.Respells y) :
    x = y ∨ Position.ofToken? x.text = none ∧ Position.ofToken? y.text = none := by
  cases h with
  | same => exact .inl rfl
  | keyword h hs =>
    exact .inr ⟨ofToken?_of_mem_foldedWords hs, ofToken?_of_mem_foldedWords (h ▸ hs)⟩
  | mask => exact .inr ⟨ofToken?_of_zero _, ofToken?_of_zero _⟩

/-- Respelled tokens both have the digits of a mask, in some letter case, or both have none. -/
theorem maskDigits?_cases (h : x.Respells y) :
    (maskDigits? x = none ∧ maskDigits? y = none) ∨
      ∃ ds es, maskDigits? x = some ds ∧ maskDigits? y = some es ∧
        ds.map Char.toUpper = es.map Char.toUpper := by
  cases h with
  | same =>
    cases hdigits : maskDigits? x with
    | none => exact .inl ⟨rfl, rfl⟩
    | some ds => exact .inr ⟨ds, ds, rfl, rfl, rfl⟩
  | keyword h hs =>
    exact .inl ⟨maskDigits?_of_mem_foldedWords hs, maskDigits?_of_mem_foldedWords (h ▸ hs)⟩
  | mask h =>
    exact .inr ⟨_, _, maskDigits?_eq_some_iff.2 String.toList_ofList,
      maskDigits?_eq_some_iff.2 String.toList_ofList, h⟩

end Token.Respells

/-! ## Computations that end alike -/

/-- Two computations fail, for reasons of the same kind, or have related values. -/
inductive Alike {ε α β : Type} (kind : ε → Bool) (R : α → β → Prop) :
    Except ε α → Except ε β → Prop where
  | error {e f : ε} (h : kind e = kind f) : Alike kind R (.error e) (.error f)
  | ok {a : α} {b : β} (h : R a b) : Alike kind R (.ok a) (.ok b)

namespace Alike

variable {ε α β γ δ : Type} {kind : ε → Bool} {R : α → β → Prop} {S : γ → δ → Prop}
  {x : Except ε α} {y : Except ε β}

theorem refl (x : Except ε α) : Alike kind Eq x x := by
  cases x with
  | error e => exact .error rfl
  | ok a => exact .ok rfl

theorem cases (h : Alike kind R x y) :
    (∃ e f, x = .error e ∧ y = .error f ∧ kind e = kind f) ∨
      ∃ a b, x = .ok a ∧ y = .ok b ∧ R a b := by
  cases h with
  | error h => exact .inl ⟨_, _, rfl, rfl, h⟩
  | ok h => exact .inr ⟨_, _, rfl, rfl, h⟩

/-- Steps that end alike after values that are related. -/
theorem bind (h : Alike kind R x y) {f : α → Except ε γ} {g : β → Except ε δ}
    (hsteps : ∀ a b, R a b → Alike kind S (f a) (g b)) : Alike kind S (x.bind f) (y.bind g) := by
  cases h with
  | error h => exact .error h
  | ok h => exact hsteps _ _ h

theorem map (h : Alike kind R x y) {f : α → γ} {g : β → δ}
    (hvalues : ∀ a b, R a b → S (f a) (g b)) : Alike kind S (x.map f) (y.map g) := by
  cases h with
  | error h => exact .error h
  | ok h => exact .ok (hvalues _ _ h)

end Alike

/-- Whether an expression is refused for want of memory. -/
def ExpressionFault.isAbrupt : ExpressionFault → Bool
  | maskTooLarge _ => true
  | _ => false

/-! ## Expressions -/

/-- Two readings have the same value and leave tokens that are respelled. -/
structure SameReading {α : Type} {xs ys : List Token} (r : Reading α xs) (s : Reading α ys) :
    Prop where
  value : r.value = s.value
  rest : List.Forall₂ Token.Respells r.rest s.rest

/-- The three readers end alike on respelled tokens that are fewer than some number. -/
structure ReadAlike (place? : Position → Option Nat) (n : Nat) : Prop where
  expression : ∀ xs ys, xs.length < n → List.Forall₂ Token.Respells xs ys →
    Alike ExpressionFault.isAbrupt SameReading (readExpression place? xs) (readExpression place? ys)
  arguments : ∀ xs ys, xs.length < n → List.Forall₂ Token.Respells xs ys →
    Alike ExpressionFault.isAbrupt SameReading (readArguments place? xs) (readArguments place? ys)
  moreArguments : ∀ xs ys, xs.length < n → List.Forall₂ Token.Respells xs ys →
    Alike ExpressionFault.isAbrupt SameReading (readMoreArguments place? xs)
      (readMoreArguments place? ys)

section Readers

variable {place? : Position → Option Nat} {n : Nat} {x y : Token} {xs ys : List Token}

theorem alike_operand (place? : Position → Option Nat) (h : x.Respells y) :
    Alike ExpressionFault.isAbrupt Eq (operand place? x) (operand place? y) := by
  rcases h.eq_or_ofToken?_eq_none with rfl | ⟨hx, hy⟩
  · exact .refl _
  · simp only [operand, hx, hy]
    exact .error rfl

/-- The digits of a mask in any letter case. -/
theorem alike_readMask {ds es : List Char} (h : ds.map Char.toUpper = es.map Char.toUpper)
    (arguments : Nat) :
    Alike ExpressionFault.isAbrupt Eq (readMask arguments ds) (readMask arguments es) := by
  have hdigits : Mask.ofText? arguments ds = Mask.ofText? arguments es := by
    rw [← Mask.ofText?_map_toUpper, h, Mask.ofText?_map_toUpper]
  rw [readMask, readMask, hdigits]
  split
  · split
    · exact .error rfl
    · exact .refl _
  · exact .refl _

namespace ReadAlike

/-- One step of the reader of expressions. -/
theorem readExpression_cons (ih : ReadAlike place? n) (hlength : xs.length < n)
    (hhead : x.Respells y) (hrest : List.Forall₂ Token.Respells xs ys) :
    Alike ExpressionFault.isAbrupt SameReading (readExpression place? (x :: xs))
      (readExpression place? (y :: ys)) := by
  have hkeyword := Head.ofText?_congr hhead.capitals_eq
  cases hx : Head.ofText? x.text with
  | none =>
    rw [readExpression_operand hx, readExpression_operand (hkeyword ▸ hx)]
    exact (alike_operand place? hhead).map fun e _ he => ⟨he, hrest⟩
  | some head =>
    have hy : Head.ofText? y.text = some head := hkeyword ▸ hx
    cases head with
    | const value =>
      rw [readExpression_const hx, readExpression_const hy]
      exact .ok ⟨rfl, hrest⟩
    | fixed gate =>
      rw [readExpression_fixed hx, readExpression_fixed hy]
      refine (ih.arguments xs ys hlength hrest).bind fun r s hsame => ?_
      rw [hsame.value]
      cases gate.formula? s.value with
      | none => exact .error rfl
      | some e => exact .ok ⟨rfl, hsame.rest⟩
    | gate connective =>
      rw [readExpression_gate hx, readExpression_gate hy]
      exact (ih.arguments xs ys hlength hrest).map fun r s hsame =>
        ⟨congrArg (Formula.gate connective) hsame.value, hsame.rest⟩
    | lookUp =>
      cases hrest with
      | nil =>
        unfold readExpression
        simp only [hx, hy]
        exact .error rfl
      | @cons hex other xs ys hhex hrest =>
        rcases hhex.maskDigits?_cases with ⟨hnone, hnone'⟩ | ⟨ds, es, hds, hes, hdigits⟩
        · unfold readExpression
          simp only [hx, hy, hnone, hnone']
          exact .error rfl
        · rw [readExpression_lookUp hx hds, readExpression_lookUp hy hes]
          refine (ih.arguments xs ys (Nat.lt_of_succ_lt hlength) hrest).bind fun r s hsame => ?_
          rw [hsame.value]
          refine (alike_readMask hdigits s.value.length).map fun mask _ hmask => ⟨?_, hsame.rest⟩
          exact congrArg₂ Formula.lookUp hmask hsame.value

/-- An expression and the arguments after it. -/
theorem allArguments (ih : ReadAlike place? n) (hlength : xs.length < n)
    (h : List.Forall₂ Token.Respells xs ys) :
    Alike ExpressionFault.isAbrupt SameReading (readAllArguments place? xs)
      (readAllArguments place? ys) := by
  refine (ih.expression xs ys hlength h).bind fun r s hfirst => ?_
  have hmore := ih.moreArguments r.rest s.rest (Nat.lt_trans r.shorter hlength) hfirst.rest
  exact hmore.map fun p q hothers => ⟨congrArg₂ List.cons hfirst.value hothers.value, hothers.rest⟩

/-- One step of the reader of arguments. -/
theorem readArguments_cons (ih : ReadAlike place? n) (hlength : xs.length < n)
    (hhead : x.Respells y) (hrest : List.Forall₂ Token.Respells xs ys) :
    Alike ExpressionFault.isAbrupt SameReading (readArguments place? (x :: xs))
      (readArguments place? (y :: ys)) := by
  rcases hhead.eq_or_words with rfl | ⟨s, t, rfl, rfl⟩
  · cases x with
    | leftParen =>
      rw [readArguments_leftParen, readArguments_leftParen]
      exact (ih.allArguments hlength hrest).map fun r s hsame => ⟨hsame.value, hsame.rest⟩
    | rightParen | comma | equals | word =>
      unfold readArguments
      exact .error rfl
  · unfold readArguments
    exact .error rfl

/-- One step of the reader of further arguments. -/
theorem readMoreArguments_cons (ih : ReadAlike place? n) (hlength : xs.length < n)
    (hhead : x.Respells y) (hrest : List.Forall₂ Token.Respells xs ys) :
    Alike ExpressionFault.isAbrupt SameReading (readMoreArguments place? (x :: xs))
      (readMoreArguments place? (y :: ys)) := by
  rcases hhead.eq_or_words with rfl | ⟨s, t, rfl, rfl⟩
  · cases x with
    | comma =>
      rw [readMoreArguments_comma, readMoreArguments_comma]
      exact (ih.allArguments hlength hrest).map fun r s hsame => ⟨hsame.value, hsame.rest⟩
    | rightParen =>
      unfold readMoreArguments
      exact .ok ⟨rfl, hrest⟩
    | leftParen | equals | word =>
      unfold readMoreArguments
      exact .error rfl
  · unfold readMoreArguments
    exact .error rfl

end ReadAlike

/-- **The readers end alike** on respelled tokens. -/
theorem readAlike (place? : Position → Option Nat) (n : Nat) : ReadAlike place? n := by
  -- on the length, for the readers call each other on what they leave, which is no tail as such
  induction n with
  | zero =>
    exact ⟨fun _ _ h => absurd h (Nat.not_lt_zero _), fun _ _ h => absurd h (Nat.not_lt_zero _),
      fun _ _ h => absurd h (Nat.not_lt_zero _)⟩
  | succ n ih =>
    refine ⟨fun xs ys hlength h => ?_, fun xs ys hlength h => ?_, fun xs ys hlength h => ?_⟩
    · cases h with
      | nil =>
        unfold readExpression
        exact .error rfl
      | cons hhead hrest =>
        exact ih.readExpression_cons (Nat.lt_of_succ_lt_succ hlength) hhead hrest
    · cases h with
      | nil =>
        unfold readArguments
        exact .error rfl
      | cons hhead hrest =>
        exact ih.readArguments_cons (Nat.lt_of_succ_lt_succ hlength) hhead hrest
    · cases h with
      | nil =>
        unfold readMoreArguments
        exact .error rfl
      | cons hhead hrest =>
        exact ih.readMoreArguments_cons (Nat.lt_of_succ_lt_succ hlength) hhead hrest

/-- An expression is read as the same formula in any letter case. -/
theorem alike_parseExpression (place? : Position → Option Nat)
    (h : List.Forall₂ Token.Respells xs ys) :
    Alike ExpressionFault.isAbrupt Eq (parseExpression place? xs) (parseExpression place? ys) := by
  rcases ((readAlike place? (xs.length + 1)).expression xs ys (Nat.lt_succ_self _) h).cases with
    ⟨e, f, he, hf, hkind⟩ | ⟨r, s, hr, hs, hsame⟩
  · simp only [parseExpression, he, hf]
    exact .error hkind
  · have hnil : r.rest = [] ↔ s.rest = [] := by
      rw [← List.length_eq_zero_iff, hsame.rest.length_eq, List.length_eq_zero_iff]
    simp only [parseExpression, hr, hs, hnil, hsame.value]
    exact .refl _

end Readers

end VoxelLogic.PinFile
