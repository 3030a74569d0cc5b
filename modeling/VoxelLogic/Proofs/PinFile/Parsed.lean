import VoxelLogic.Proofs.PinFile.Grammar

/-!
# The readers and the grammar

The readers of expressions follow the grammar: they take off the front of a list what derives a
formula, and they read everything that derives one.

* `derives_of_readExpression`: what is taken off derives what is read.
* `settles_of_derives`: what derives a formula is read as that formula, whatever follows it.
* `masksFit_of_derives`: the masks of what is derived fit.
* `parseExpression_eq_ok_iff`: these together, for an expression that takes all tokens.
* `hasOversized_of_readExpression`: only a look-up table of more than 65 arguments is refused
  because its mask cannot be stored.
-/

namespace VoxelLogic.PinFile

open Text

variable {place? : Position → Option Nat}

/-! ## What is read is derived -/

/-- What a token that is no keyword is read as. -/
theorem derives_of_operand {token : Token} {e : Formula} (h : operand place? token = .ok e) :
    Derives place? [token] e := by
  unfold operand at h
  split at h
  · cases h
  · next p hp =>
    split at h
    · cases h
    · next place hplace =>
      cases h
      exact .input (Position.token_of_ofToken? hp).symm hplace

/-- **The readers take off what derives what they read.** -/
theorem derives_of_readExpression (place? : Position → Option Nat) :
    (∀ source r, readExpression place? source = .ok r →
      ∃ used, source = used ++ r.rest ∧ Derives place? used r.value) ∧
    (∀ source r, readArguments place? source = .ok r →
      ∃ parts, source = enclosed parts ++ r.rest ∧ r.value ≠ [] ∧
        List.Forall₂ (Derives place?) parts r.value) ∧
    (∀ source r, readMoreArguments place? source = .ok r →
      ∃ parts, source = moreTokens parts ++ r.rest ∧
        List.Forall₂ (Derives place?) parts r.value) := by
  apply readExpression.mutual_induct place?
  case case3 =>
    intro token rest hhead e he r hr
    unfold readExpression at hr
    simp only [hhead, he] at hr
    cases hr
    exact ⟨[token], rfl, derives_of_operand he⟩
  case case4 =>
    intro token rest value hhead r hr
    unfold readExpression at hr
    simp only [hhead] at hr
    cases hr
    exact ⟨[token], rfl, .const (announces_iff.2 hhead)⟩
  case case7 =>
    intro token rest gate hhead arguments harguments e he ih r hr
    unfold readExpression at hr
    simp only [hhead, harguments, he] at hr
    cases hr
    obtain ⟨parts, hparts, -, hes⟩ := ih arguments harguments
    exact ⟨token :: enclosed parts, congrArg (token :: ·) hparts,
      .fixed (announces_iff.2 hhead) (FixedGate.makes_iff.2 he) hes⟩
  case case9 =>
    intro token rest connective hhead arguments harguments ih r hr
    unfold readExpression at hr
    simp only [hhead, harguments] at hr
    cases hr
    obtain ⟨parts, hparts, hne, hes⟩ := ih arguments harguments
    exact ⟨token :: enclosed parts, congrArg (token :: ·) hparts,
      .gate (announces_iff.2 hhead) hne hes⟩
  case case14 =>
    intro token hhead hex rest digits hdigits arguments harguments mask hmask ih r hr
    unfold readExpression at hr
    simp only [hhead, hdigits, harguments, hmask] at hr
    cases hr
    obtain ⟨parts, hparts, hne, hes⟩ := ih arguments harguments
    have hhex := spellsMask_iff.2 ⟨digits, hdigits, hmask⟩
    exact ⟨token :: hex :: enclosed parts, congrArg (token :: hex :: ·) hparts,
      .lookUp (announces_iff.2 hhead) hhex hne hes⟩
  case case18 =>
    intro rest first hfirst more hmore ihfirst ihmore r hr
    unfold readArguments at hr
    simp only [hfirst, hmore] at hr
    cases hr
    obtain ⟨used, hused, hvalue⟩ := ihfirst first hfirst
    obtain ⟨parts, hparts, hes⟩ := ihmore more hmore
    have htaken : rest = (used ++ moreTokens parts) ++ more.rest := by
      rw [List.append_assoc, ← hparts]
      exact hused
    exact ⟨used :: parts, congrArg (.leftParen :: ·) htaken, List.cons_ne_nil _ _,
      .cons hvalue hes⟩
  case case21 =>
    intro rest r hr
    unfold readMoreArguments at hr
    cases hr
    exact ⟨[], rfl, .nil⟩
  case case24 =>
    intro rest next hnext more hmore ihnext ihmore r hr
    unfold readMoreArguments at hr
    simp only [hnext, hmore] at hr
    cases hr
    obtain ⟨used, hused, hvalue⟩ := ihnext next hnext
    obtain ⟨parts, hparts, hes⟩ := ihmore more hmore
    have htaken : rest = (used ++ moreTokens parts) ++ more.rest := by
      rw [List.append_assoc, ← hparts]
      exact hused
    exact ⟨used :: parts, congrArg (.comma :: ·) htaken, .cons hvalue hes⟩
  case case15 | case16 | case17 | case19 =>
    intros
    rename_i h
    unfold readArguments at h
    simp_all
  case case20 | case22 | case23 | case25 =>
    intros
    rename_i h
    unfold readMoreArguments at h
    simp_all
  all_goals
    intros
    rename_i h
    unfold readExpression at h
    simp_all

/-! ## What is derived is read -/

/-- The arguments of a gate settle if each of them does. -/
theorem settles_parts {parts : List (List Token)} {es : List Formula}
    (h : List.Forall₂ (fun x e =>
      ∀ rest, Settles true (readExpression place? (x ++ rest)) e rest) parts es)
    (hne : es ≠ []) (rest : List Token) :
    Settles true (readArguments place? (enclosed parts ++ rest)) es rest := by
  have hreads : (!es.isEmpty && es.all fun _ => true) = true := by
    simp [hne]
  rw [← hreads]
  exact settles_enclosed h rest

/-- **What derives a formula is read as the formula**, and what follows is left. -/
theorem settles_of_derives {tokens : List Token} {e : Formula} (h : Derives place? tokens e)
    (rest : List Token) : Settles true (readExpression place? (tokens ++ rest)) e rest := by
  revert rest
  refine Derives.induct (motive := fun x e =>
    ∀ rest, Settles true (readExpression place? (x ++ rest)) e rest)
    ?const ?input ?fixed ?gate ?lookUp h
  case const =>
    intro token value htoken rest
    exact settles_const (announces_iff.1 htoken)
  case input =>
    intro token p place htoken hplace rest
    exact settles_input htoken hplace
  case fixed =>
    intro token gate parts es e htoken hmakes _ ih rest
    have hes := settles_parts ih hmakes.ne_nil rest
    exact hes.fixed (announces_iff.1 htoken) (FixedGate.makes_iff.1 hmakes)
  case gate =>
    intro token connective parts es htoken hne _ ih rest
    exact (settles_parts ih hne rest).gate (announces_iff.1 htoken)
  case lookUp =>
    intro token hex mask parts es htoken hhex hne _ ih rest
    obtain ⟨digits, hdigits, hmask⟩ := spellsMask_iff.1 hhex
    exact (settles_parts ih hne rest).lookUp (announces_iff.1 htoken) hdigits fun _ => hmask

/-! ## Masks of what is derived -/

/-- What holds of the formula of every part holds of every argument. -/
theorem forall_mem_of_parts {Q : Formula → Prop} {parts : List (List Token)} {es : List Formula}
    (h : List.Forall₂ (fun _ e => Q e) parts es) : ∀ e ∈ es, Q e := by
  induction h with
  | nil => exact List.forall_mem_nil _
  | cons hfirst _ ih => exact List.forall_mem_cons.2 ⟨hfirst, ih⟩

/-- The masks of an expression fit, because each is spelled for the arguments of its table. -/
theorem masksFit_of_derives {tokens : List Token} {e : Formula} (h : Derives place? tokens e) :
    e.masksFit = true := by
  refine Derives.induct (motive := fun _ e => e.masksFit = true) ?const ?input ?fixed ?gate
    ?lookUp h
  case const =>
    intros
    rfl
  case input =>
    intros
    rfl
  case fixed =>
    intro token gate parts es e _ hmakes _ ih
    exact hmakes.masksFit_iff.2 (forall_mem_of_parts ih)
  case gate =>
    intro token connective parts es _ _ _ ih
    exact Formula.allMasksFit_iff.2 (forall_mem_of_parts ih)
  case lookUp =>
    intro token hex mask parts es _ hhex _ _ ih
    rw [Formula.masksFit, Bool.and_eq_true]
    exact ⟨Mask.fits_iff.2 hhex.arity, Formula.allMasksFit_iff.2 (forall_mem_of_parts ih)⟩

/-! ## Whole expressions -/

theorem derives_of_parseExpression {tokens : List Token} {e : Formula}
    (h : parseExpression place? tokens = .ok e) : Derives place? tokens e := by
  unfold parseExpression at h
  split at h
  · cases h
  · next r hr =>
    split at h <;> cases h
    next hrest =>
      obtain ⟨used, hused, hderives⟩ := (derives_of_readExpression place?).1 tokens r hr
      rw [hrest, List.append_nil] at hused
      rwa [← hused] at hderives

/-- An expression is accepted exactly if all of its tokens derive it. -/
theorem parseExpression_eq_ok_iff {tokens : List Token} {e : Formula} :
    parseExpression place? tokens = .ok e ↔ Derives place? tokens e := by
  refine ⟨derives_of_parseExpression, fun hderives => ?_⟩
  obtain ⟨r, hr, hvalue, hrest⟩ := (settles_of_derives hderives []).reads rfl
  rw [← List.append_nil tokens, parseExpression, hr]
  simp only [hrest, hvalue, if_true]

/-! ## Masks that cannot be stored -/

/-- A look-up table of more than 65 arguments, somewhere in a list of tokens. -/
inductive HasOversized (place? : Position → Option Nat) (arguments : Nat) : List Token → Prop where
  | here {token hex : Token} {digits : List Char} {parts : List (List Token)} {es : List Formula}
      {rest : List Token} (htoken : Announces token .lookUp)
      (hhex : hex.text.toList = '0' :: 'x' :: digits)
      (hes : List.Forall₂ (Derives place?) parts es) (hlength : es.length = arguments)
      (hlarge : 65 < arguments) :
    HasOversized place? arguments (token :: hex :: (enclosed parts ++ rest))
  | later {token : Token} {rest : List Token} (h : HasOversized place? arguments rest) :
    HasOversized place? arguments (token :: rest)

variable {n : Nat}

theorem HasOversized.append {rest : List Token} (h : HasOversized place? n rest)
    (tokens : List Token) : HasOversized place? n (tokens ++ rest) := by
  induction tokens with
  | nil => exact h
  | cons token tokens ih => exact .later ih

theorem eq_of_readMask_eq_error {arguments : Nat} {digits : List Char}
    (h : readMask arguments digits = .error (.maskTooLarge n)) :
    arguments = n ∧ 65 < arguments := by
  unfold readMask at h
  split at h
  · split at h <;> cases h
  · next hstorable =>
    cases h
    rw [Mask.isStorable_iff, Nat.not_le] at hstorable
    exact ⟨rfl, hstorable⟩

theorem operand_ne_maskTooLarge {token : Token} :
    operand place? token ≠ .error (.maskTooLarge n) := by
  unfold operand
  split
  · nofun
  · split <;> nofun

/-- **Only a look-up table of more than 65 arguments has no place for its mask.** -/
theorem hasOversized_of_readExpression (place? : Position → Option Nat) (n : Nat) :
    (∀ source, readExpression place? source = .error (.maskTooLarge n) →
      HasOversized place? n source) ∧
    (∀ source, readArguments place? source = .error (.maskTooLarge n) →
      HasOversized place? n source) ∧
    (∀ source, readMoreArguments place? source = .error (.maskTooLarge n) →
      HasOversized place? n source) := by
  have hreads := derives_of_readExpression place?
  apply readExpression.mutual_induct place?
  case case2 =>
    intro token rest hhead fault hfault h
    unfold readExpression at h
    simp only [hhead, hfault] at h
    cases h
    exact absurd hfault operand_ne_maskTooLarge
  case case5 =>
    intro token rest gate hhead fault hfault ih h
    unfold readExpression at h
    simp only [hhead, hfault] at h
    cases h
    exact .later (ih hfault)
  case case8 =>
    intro token rest connective hhead fault hfault ih h
    unfold readExpression at h
    simp only [hhead, hfault] at h
    cases h
    exact .later (ih hfault)
  case case12 =>
    intro token hhead hex rest digits hdigits fault hfault ih h
    unfold readExpression at h
    simp only [hhead, hdigits, hfault] at h
    cases h
    exact .later (.later (ih hfault))
  case case13 =>
    intro token hhead hex rest digits hdigits arguments harguments fault hfault ih h
    unfold readExpression at h
    simp only [hhead, hdigits, harguments, hfault] at h
    cases h
    obtain ⟨hlength, hlarge⟩ := eq_of_readMask_eq_error hfault
    obtain ⟨parts, hparts, -, hes⟩ := hreads.2.1 rest arguments harguments
    rw [hparts]
    exact .here (announces_iff.2 hhead) (maskDigits?_eq_some_iff.1 hdigits) hes hlength
      (hlength ▸ hlarge)
  case case16 =>
    intro rest fault hfault ih h
    unfold readArguments at h
    simp only [hfault] at h
    cases h
    exact .later (ih hfault)
  case case17 =>
    intro rest first hfirst fault hfault ihfirst ihmore h
    unfold readArguments at h
    simp only [hfirst, hfault] at h
    cases h
    obtain ⟨used, hused, -⟩ := hreads.1 rest first hfirst
    rw [hused]
    exact .later ((ihmore hfault).append used)
  case case22 =>
    intro rest fault hfault ih h
    unfold readMoreArguments at h
    simp only [hfault] at h
    cases h
    exact .later (ih hfault)
  case case23 =>
    intro rest next hnext fault hfault ihnext ihmore h
    unfold readMoreArguments at h
    simp only [hnext, hfault] at h
    cases h
    obtain ⟨used, hused, -⟩ := hreads.1 rest next hnext
    rw [hused]
    exact .later ((ihmore hfault).append used)
  case case15 | case18 | case19 =>
    intros
    rename_i h
    unfold readArguments at h
    simp_all
  case case20 | case21 | case24 | case25 =>
    intros
    rename_i h
    unfold readMoreArguments at h
    simp_all
  all_goals
    intros
    rename_i h
    unfold readExpression at h
    simp_all

/-- The error of an expression that is refused for the size of a mask. -/
theorem hasOversized_of_parseExpression {tokens : List Token}
    (h : parseExpression place? tokens = .error (.maskTooLarge n)) :
    HasOversized place? n tokens := by
  unfold parseExpression at h
  split at h
  · next fault hfault =>
    cases h
    exact (hasOversized_of_readExpression place? n).1 tokens hfault
  · split at h <;> cases h

/-- A look-up table of more than 65 arguments is refused, whatever its mask is. -/
theorem parseExpression_oversized {token hex : Token} {digits : List Char}
    {parts : List (List Token)} {es : List Formula} (htoken : Announces token .lookUp)
    (hhex : hex.text.toList = '0' :: 'x' :: digits)
    (hes : List.Forall₂ (Derives place?) parts es) (hlarge : 65 < es.length) :
    parseExpression place? (token :: hex :: enclosed parts) =
      .error (.maskTooLarge es.length) := by
  have hne : es ≠ [] := List.ne_nil_of_length_pos (Nat.zero_lt_of_lt hlarge)
  have hparts : List.Forall₂ (fun x e =>
      ∀ rest, Settles true (readExpression place? (x ++ rest)) e rest) parts es :=
    hes.imp fun _ _ he => settles_of_derives he
  obtain ⟨r, hr, hvalue, -⟩ := (settles_parts hparts hne []).reads rfl
  rw [← List.append_nil (enclosed parts)]
  have hmask : readMask es.length digits = .error (.maskTooLarge es.length) := by
    rw [readMask, if_neg]
    rw [Mask.isStorable_iff, Nat.not_le]
    exact hlarge
  unfold parseExpression readExpression
  simp only [announces_iff.1 htoken, maskDigits?_eq_some_iff.2 hhex, hr, hvalue, hmask]

/-! ## The parser and the grammar -/

/-- **The parser accepts exactly the grammar.**  It returns a formula if and only if all tokens
derive it, and then every mask of the formula has been made for the arguments of its table.  There
is one such formula at most, and where there is none, the tokens are refused.  Only a look-up table
of more than 65 arguments leaves the parser without a place for its mask. -/
theorem parseExpression_grammar (place? : Position → Option Nat) (tokens : List Token) :
    (∀ e, parseExpression place? tokens = .ok e ↔ Derives place? tokens e) ∧
    (∀ e, Derives place? tokens e → e.masksFit = true) ∧
    (∀ e f, Derives place? tokens e → Derives place? tokens f → e = f) ∧
    ((¬∃ e, Derives place? tokens e) →
      ∃ fault, parseExpression place? tokens = .error fault) ∧
    ∀ n, parseExpression place? tokens = .error (.maskTooLarge n) →
      HasOversized place? n tokens := by
  refine ⟨fun e => parseExpression_eq_ok_iff, fun e => masksFit_of_derives, ?_, ?_,
    fun n => hasOversized_of_parseExpression⟩
  · intro e f he hf
    exact (he.append_inj (r := []) (s := []) hf rfl).2
  · intro hnone
    cases hresult : parseExpression place? tokens with
    | ok e => exact absurd ⟨e, derives_of_parseExpression hresult⟩ hnone
    | error fault => exact ⟨fault, rfl⟩

/-- A look-up table of 66 arguments with the mask `0x0`: no digit is amiss but the table is too
large. -/
theorem parseExpression_sixtySix :
    parseExpression [Position.site .middle .middle .left].idxOf?
        (.word "LUT" :: .word "0x0" :: enclosed (List.replicate 66 [.word "L"])) =
      .error (.maskTooLarge 66) := by
  have hinput : Derives [Position.site .middle .middle .left].idxOf? [.word "L"] (.input 0) :=
    .input (p := .site .middle .middle .left) rfl (by decide)
  have hes (n : Nat) : List.Forall₂ (Derives [Position.site .middle .middle .left].idxOf?)
      (List.replicate n [.word "L"]) (List.replicate n (.input 0)) := by
    induction n with
    | zero => exact .nil
    | succ n ih => exact .cons hinput ih
  have htoken : Announces (.word "LUT") .lookUp := by decide
  have hhex : (Token.word "0x0").text.toList = ['0', 'x', '0'] := by decide
  exact parseExpression_oversized htoken hhex (hes 66) (by decide)

end VoxelLogic.PinFile
