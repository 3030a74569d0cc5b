import VoxelLogic.Formula.Render
import VoxelLogic.Position
import VoxelLogic.Proofs.Formula.Readable
import VoxelLogic.Proofs.PinFile.Token
import VoxelLogic.Proofs.Text.Numeral

/-!
# Tokens of written formulas

Between the text of a formula and its reading stand its tokens.

* `tokensOf`: the tokens of a formula over named inputs.
* `spells_render`: the written form of a formula spells its tokens, if the names are words.
-/

namespace VoxelLogic.PinFile

open Token
open Formula (inputName bracketed render renderAll_eq_map)

/-! ## Tokens -/

/-- The tokens of arguments after the first, and of the closing bracket. -/
def moreTokens : List (List Token) → List Token
  | [] => [.rightParen]
  | tokens :: rest => .comma :: (tokens ++ moreTokens rest)

/-- The tokens of arguments in brackets. -/
def enclosed : List (List Token) → List Token
  | [] => [.leftParen, .rightParen]
  | tokens :: rest => .leftParen :: (tokens ++ moreTokens rest)

mutual

/-- The tokens of a formula over named inputs. -/
def tokensOf (names : List String) : Formula → List Token
  | .const false => [.word "gnd"]
  | .const true => [.word "vdd"]
  | .input place => [.word (inputName names place)]
  | .not e => .word "NOT" :: enclosed [tokensOf names e]
  | .gate connective es => .word connective.keyword :: enclosed (tokensOfAll names es)
  | .mux s x y => .word "MUX" :: enclosed [tokensOf names s, tokensOf names x, tokensOf names y]
  | .majority x y z =>
    .word "MAJ" :: enclosed [tokensOf names x, tokensOf names y, tokensOf names z]
  | .lookUp mask es =>
    .word "LUT" :: .word ("0x" ++ mask.text) :: enclosed (tokensOfAll names es)

/-- The tokens of each of some formulas. -/
def tokensOfAll (names : List String) : List Formula → List (List Token)
  | [] => []
  | e :: es => tokensOf names e :: tokensOfAll names es

end

theorem tokensOfAll_eq_map (names : List String) (es : List Formula) :
    tokensOfAll names es = es.map (tokensOf names) := by
  induction es with
  | nil => rfl
  | cons e es ih => rw [tokensOfAll, ih, List.map_cons]

theorem tokensOf_ne_nil (names : List String) (e : Formula) : tokensOf names e ≠ [] := by
  cases e with
  | const value => cases value <;> exact List.cons_ne_nil _ _
  | _ => exact List.cons_ne_nil _ _

/-! ## Words -/

theorem spells_word {word : String} (h : IsWord word.toList) :
    Spells word.toList [.word word] := by
  have hspells := Spells.ofWord h
  rwa [String.ofList_toList] at hspells

/-- A word in front of a text that begins with a mark or a blank. -/
theorem spells_word_append {word : String} (h : IsWord word.toList) {text : List Char}
    {tokens : List Token} (hapart : IsApart text) (htext : Spells text tokens) :
    Spells (word.toList ++ text) (.word word :: tokens) :=
  (spells_word h).append hapart htext

theorem isWordCharacter_of_isDigit {c : Char} (h : c.isDigit = true) :
    isWordCharacter c = true := by
  simp [isWordCharacter, Char.isAlphanum, h]

theorem isWord_toString (n : Nat) : IsWord (toString n).toList :=
  ⟨Text.toList_toString_ne_nil n, fun _ hc =>
    isWordCharacter_of_isDigit (Text.isDigit_of_mem_toString hc)⟩

theorem isWord_keyword (connective : Connective) : IsWord connective.keyword.toList := by
  cases connective <;> decide

theorem isWord_token (p : Position) : IsWord p.token.toList := by
  have h : ∀ q ∈ Position.all, IsWord q.token.toList := by decide
  exact h p (Position.mem_all p)

theorem isWordCharacter_toChar (digit : Text.HexDigit) :
    isWordCharacter digit.toChar = true := by
  revert digit
  decide

/-- A mask is written as a word behind its mark. -/
theorem isWord_mask (mask : Mask) : IsWord ("0x" ++ mask.text).toList := by
  rw [String.toList_append]
  refine ⟨List.append_ne_nil_of_left_ne_nil (by decide) _, fun c hc => ?_⟩
  rcases List.mem_append.1 hc with hmark | hdigit
  · have hword : IsWord "0x".toList := by decide
    exact hword.2 c hmark
  · rw [Mask.text, String.toList_ofList] at hdigit
    obtain ⟨digit, -, rfl⟩ := List.mem_map.1 hdigit
    exact isWordCharacter_toChar digit

/-- An input is written as a word, whether it has a name or not. -/
theorem isWord_inputName {names : List String} (h : ∀ name ∈ names, IsWord name.toList)
    (place : Nat) : IsWord (inputName names place).toList := by
  rw [inputName]
  cases hname : names[place]? with
  | some name => exact h name (List.mem_of_getElem? hname)
  | none =>
    rw [Option.getD_none, String.toList_append]
    refine ⟨List.append_ne_nil_of_left_ne_nil (by decide) _, fun c hc => ?_⟩
    rcases List.mem_append.1 hc with hletter | hdigit
    · obtain rfl : c = 'i' := List.mem_singleton.1 hletter
      decide
    · exact isWordCharacter_of_isDigit (Text.isDigit_of_mem_toString hdigit)

/-! ## Texts -/

/-- The characters of texts with commas between them. -/
theorem toList_intercalate_comma (first : String) (rest : List String) :
    (String.intercalate ", " (first :: rest)).toList =
      first.toList ++ rest.flatMap fun text => ',' :: ' ' :: text.toList := by
  induction rest generalizing first with
  | nil => simp
  | cons second rest ih =>
    rw [String.intercalate_cons_cons, String.toList_append, String.toList_append, ih,
      List.flatMap_cons, List.append_assoc]
    rfl

/-- A comma or the closing bracket follows an argument. -/
theorem isApart_more (texts : List String) :
    IsApart (texts.flatMap (fun s => ',' :: ' ' :: s.toList) ++ [')']) := by
  cases texts with
  | nil => exact isApart_cons (by decide) _
  | cons text texts => exact isApart_cons (by decide) _

variable {text : Formula → String} {tokens : Formula → List Token}

/-- Arguments after the first spell their tokens. -/
theorem spells_more {es : List Formula} (h : ∀ e ∈ es, Spells (text e).toList (tokens e)) :
    Spells ((es.map text).flatMap (fun s => ',' :: ' ' :: s.toList) ++ [')'])
      (moreTokens (es.map tokens)) := by
  induction es with
  | nil => exact .mark rfl .nil
  | cons e es ih =>
    have hmore := ih fun x hx => h x (List.mem_cons_of_mem e hx)
    have hfirst := (h e List.mem_cons_self).append (isApart_more _) hmore
    rw [List.map_cons, List.flatMap_cons, List.map_cons, moreTokens, List.append_assoc]
    exact .mark rfl (.blank hfirst)

/-- Arguments in brackets spell their tokens. -/
theorem spells_bracketed {es : List Formula} (h : ∀ e ∈ es, Spells (text e).toList (tokens e)) :
    Spells (bracketed (es.map text)).toList (enclosed (es.map tokens)) := by
  cases es with
  | nil =>
    have htext : (bracketed []).toList = ['(', ')'] := by decide
    rw [List.map_nil, htext]
    exact .mark rfl (.mark rfl .nil)
  | cons e es =>
    have hmore := spells_more fun x hx => h x (List.mem_cons_of_mem e hx)
    have hfirst := (h e List.mem_cons_self).append (isApart_more _) hmore
    have htext : (bracketed ((e :: es).map text)).toList =
        '(' :: ((text e).toList ++
          ((es.map text).flatMap (fun s => ',' :: ' ' :: s.toList) ++ [')'])) := by
      rw [bracketed, String.toList_append, String.toList_append, List.map_cons,
        toList_intercalate_comma, List.append_assoc, List.append_assoc]
      rfl
    rw [htext, List.map_cons, enclosed]
    exact .mark rfl hfirst

theorem isApart_bracketed (texts : List String) : IsApart (bracketed texts).toList := by
  rw [bracketed, String.toList_append, String.toList_append]
  exact isApart_cons (by decide) _

/-- A gate in front of its arguments. -/
theorem spells_gate {word : String} (hword : IsWord word.toList) {es : List Formula}
    (h : ∀ e ∈ es, Spells (text e).toList (tokens e)) :
    Spells (word ++ bracketed (es.map text)).toList (.word word :: enclosed (es.map tokens)) := by
  rw [String.toList_append]
  exact spells_word_append hword (isApart_bracketed _) (spells_bracketed h)

/-- **Written formulas.**  The written form of a formula spells its tokens. -/
theorem spells_render {names : List String} (h : ∀ name ∈ names, IsWord name.toList)
    (e : Formula) : Spells (e.render names).toList (tokensOf names e) := by
  induction e with
  | const value =>
    have hlow : IsWord "gnd".toList := by decide
    have hhigh : IsWord "vdd".toList := by decide
    cases value with
    | false => exact spells_word hlow
    | true => exact spells_word hhigh
  | input place => exact spells_word (isWord_inputName h place)
  | not e ih =>
    have hword : IsWord "NOT".toList := by decide
    have hes : ∀ x ∈ [e], Spells (x.render names).toList (tokensOf names x) := by
      simpa using ih
    have hgate := spells_gate hword hes
    rw [render, tokensOf]
    exact hgate
  | gate connective es ih =>
    rw [render, renderAll_eq_map, tokensOf, tokensOfAll_eq_map]
    exact spells_gate (isWord_keyword connective) ih
  | mux s x y ihs ihx ihy =>
    have hword : IsWord "MUX".toList := by decide
    have hes : ∀ a ∈ [s, x, y], Spells (a.render names).toList (tokensOf names a) := by
      simpa using ⟨ihs, ihx, ihy⟩
    have hgate := spells_gate hword hes
    rw [render, tokensOf]
    exact hgate
  | majority x y z ihx ihy ihz =>
    have hword : IsWord "MAJ".toList := by decide
    have hes : ∀ a ∈ [x, y, z], Spells (a.render names).toList (tokensOf names a) := by
      simpa using ⟨ihx, ihy, ihz⟩
    have hgate := spells_gate hword hes
    rw [render, tokensOf]
    exact hgate
  | lookUp mask es ih =>
    have hword : IsWord "LUT".toList := by decide
    have hargs := spells_gate (isWord_mask mask) ih
    have htext : (render names (.lookUp mask es)).toList =
        "LUT".toList ++ ' ' :: ("0x" ++ mask.text ++ bracketed (es.map (render names))).toList := by
      rw [render, renderAll_eq_map]
      simp only [String.toList_append, List.append_assoc]
      rfl
    rw [htext, tokensOf, tokensOfAll_eq_map]
    exact spells_word_append hword (isApart_cons (by decide) _) (.blank hargs)

end VoxelLogic.PinFile
