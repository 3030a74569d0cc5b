import VoxelLogic.Proofs.Formula.Mask
import VoxelLogic.Proofs.PinFile.Expression

/-!
# The grammar of expressions

The expressions of a pin file have a grammar, which is given here without the readers.  Its rules
say which tokens derive which formula over a map from positions to places.

* `Announces`, `SpellsMask`, `FixedGate.Makes`: keywords, masks, and the gates of a fixed number of
  arguments.
* `Derives`: the tokens of an expression and its formula.
* `Derives.append_inj`: an expression ends at one place only and has one formula.
-/

namespace VoxelLogic.PinFile

open Text

/-! ## Keywords -/

/-- The keywords that announce something, in capitals. -/
def Head.keywords : Head → List String
  | .const false => ["0", "GND", "VSS"]
  | .const true => ["1", "VDD"]
  | .fixed .not => ["NOT"]
  | .fixed .buffer => ["BUF", "BUFF"]
  | .fixed .mux => ["MUX"]
  | .fixed .majority => ["MAJ"]
  | .gate connective => [connective.keyword]
  | .lookUp => ["LUT"]

/-- A token that is a keyword in any letter case. -/
def Announces (token : Token) (head : Head) : Prop := capitals token.text ∈ head.keywords

instance (token : Token) (head : Head) : Decidable (Announces token head) :=
  inferInstanceAs (Decidable (capitals token.text ∈ head.keywords))

theorem Head.mem_keywords_of_ofText? {text : String} {head : Head}
    (h : Head.ofText? text = some head) : capitals text ∈ head.keywords := by
  unfold Head.ofText? at h
  split at h
  case h_12 =>
    obtain ⟨connective, hfind, rfl⟩ := Option.map_eq_some_iff.1 h
    have hkeyword := List.find?_some hfind
    rw [Head.keywords, List.mem_singleton]
    exact (beq_iff_eq.1 hkeyword).symm
  all_goals
    rename_i htext
    cases h
    rw [htext]
    decide

theorem Head.ofText?_of_mem_keywords {text : String} {head : Head}
    (h : capitals text ∈ head.keywords) : Head.ofText? text = some head := by
  cases head with
  | const value =>
    cases value <;> simp only [Head.keywords, List.mem_cons, List.not_mem_nil, or_false] at h
    · rcases h with h | h | h <;> simp only [Head.ofText?, h]
    · rcases h with h | h <;> simp only [Head.ofText?, h]
  | fixed gate =>
    cases gate <;> simp only [Head.keywords, List.mem_cons, List.not_mem_nil, or_false] at h
    case buffer => rcases h with h | h <;> simp only [Head.ofText?, h]
    all_goals simp only [Head.ofText?, h]
  | gate connective =>
    have hkeyword := List.mem_singleton.1 h
    have hfind : Connective.ofKeyword? text = some connective := by
      rw [Connective.ofKeyword?, hkeyword]
      cases connective <;> decide
    cases connective <;>
    · simp only [Head.ofText?, hkeyword, Connective.keyword, hfind, Option.map_some]
      rfl
  | lookUp =>
    have hkeyword := List.mem_singleton.1 h
    simp only [Head.ofText?, hkeyword]

/-- The reader of keywords finds what a token announces. -/
theorem announces_iff {token : Token} {head : Head} :
    Announces token head ↔ Head.ofText? token.text = some head :=
  ⟨Head.ofText?_of_mem_keywords, Head.mem_keywords_of_ofText?⟩

/-! ## Masks -/

/-- A token that spells the mask of a look-up table: the mark `0x` and as many hexadecimal digits,
in either letter case, as the number of arguments calls for. -/
structure SpellsMask (hex : Token) (arguments : Nat) (mask : Mask) : Prop where
  arity : mask.arity = arguments
  digits : ∃ digits, hex.text.toList = '0' :: 'x' :: digits ∧
    digits.map HexDigit.ofChar? = mask.digits.map some
  length : mask.digits.length = max 1 (2 ^ arguments / 4)

theorem maskDigits?_eq_some_iff {hex : Token} {digits : List Char} :
    maskDigits? hex = some digits ↔ hex.text.toList = '0' :: 'x' :: digits := by
  unfold maskDigits?
  constructor
  · intro h
    split at h
    · next found hfound =>
      cases h
      exact hfound
    · cases h
  · intro h
    simp only [h]

/-- A mask is read exactly if it is spelled. -/
theorem spellsMask_iff {hex : Token} {arguments : Nat} {mask : Mask} :
    SpellsMask hex arguments mask ↔
      ∃ digits, maskDigits? hex = some digits ∧ readMask arguments digits = .ok mask := by
  simp only [maskDigits?_eq_some_iff, readMask_eq_ok_iff, Mask.ofText?_eq_some_iff, Mask.fits_iff]
  constructor
  · rintro ⟨harity, ⟨digits, htext, hdigits⟩, -⟩
    exact ⟨digits, htext, hdigits, harity⟩
  · rintro ⟨digits, htext, hdigits, rfl⟩
    exact ⟨rfl, ⟨digits, htext, hdigits⟩, mask.length_digits_eq_max⟩

/-! ## Gates of a fixed number of arguments -/

/-- The formula that a gate makes of its arguments.  A buffer makes nothing of its own. -/
inductive FixedGate.Makes : FixedGate → List Formula → Formula → Prop where
  | not (e : Formula) : Makes .not [e] (.not e)
  | buffer (e : Formula) : Makes .buffer [e] e
  | mux (s x y : Formula) : Makes .mux [s, x, y] (.mux s x y)
  | majority (x y z : Formula) : Makes .majority [x, y, z] (.majority x y z)

theorem FixedGate.makes_iff {gate : FixedGate} {es : List Formula} {e : Formula} :
    gate.Makes es e ↔ gate.formula? es = some e := by
  constructor
  · rintro (_ | _ | _ | _) <;> rfl
  · intro h
    unfold FixedGate.formula? at h
    split at h <;> cases h <;> constructor

theorem FixedGate.Makes.ne_nil {gate : FixedGate} {es : List Formula} {e : Formula}
    (h : gate.Makes es e) : es ≠ [] := by
  cases h <;> exact List.cons_ne_nil _ _

/-- A gate has the masks of its arguments and no others. -/
theorem FixedGate.Makes.masksFit_iff {gate : FixedGate} {es : List Formula} {e : Formula}
    (h : gate.Makes es e) : e.masksFit = true ↔ ∀ x ∈ es, x.masksFit = true := by
  cases h <;> simp [Formula.masksFit, and_assoc]

/-! ## The grammar -/

/-- The tokens of an expression, with the formula that they derive. -/
inductive Derives (place? : Position → Option Nat) : List Token → Formula → Prop where
  /-- A fixed value. -/
  | const {token : Token} {value : Bool} (htoken : Announces token (.const value)) :
    Derives place? [token] (.const value)
  /-- A position that has a place, as the catalog spells it. -/
  | input {token : Token} {p : Position} {place : Nat} (htoken : token.text = p.token)
      (hplace : place? p = some place) : Derives place? [token] (.input place)
  /-- A gate over as many expressions as it takes. -/
  | fixed {token : Token} {gate : FixedGate} {parts : List (List Token)} {es : List Formula}
      {e : Formula} (htoken : Announces token (.fixed gate)) (hmakes : gate.Makes es e)
      (hes : List.Forall₂ (Derives place?) parts es) : Derives place? (token :: enclosed parts) e
  /-- A gate over one or more expressions. -/
  | gate {token : Token} {connective : Connective} {parts : List (List Token)}
      {es : List Formula} (htoken : Announces token (.gate connective)) (hne : es ≠ [])
      (hes : List.Forall₂ (Derives place?) parts es) :
    Derives place? (token :: enclosed parts) (.gate connective es)
  /-- A look-up table over one or more expressions, with a mask for so many. -/
  | lookUp {token hex : Token} {mask : Mask} {parts : List (List Token)} {es : List Formula}
      (htoken : Announces token .lookUp) (hhex : SpellsMask hex es.length mask) (hne : es ≠ [])
      (hes : List.Forall₂ (Derives place?) parts es) :
    Derives place? (token :: hex :: enclosed parts) (.lookUp mask es)

variable {place? : Position → Option Nat}

/-- A property that passes from the arguments of each rule to what the rule derives holds of every
expression. -/
@[elab_as_elim]
theorem Derives.induct {motive : List Token → Formula → Prop}
    (const : ∀ token value, Announces token (.const value) → motive [token] (.const value))
    (input : ∀ (token : Token) p place, token.text = p.token → place? p = some place →
      motive [token] (.input place))
    (fixed : ∀ token gate parts es e, Announces token (.fixed gate) → gate.Makes es e →
      List.Forall₂ (Derives place?) parts es → List.Forall₂ motive parts es →
      motive (token :: enclosed parts) e)
    (gate : ∀ token connective parts es, Announces token (.gate connective) → es ≠ [] →
      List.Forall₂ (Derives place?) parts es → List.Forall₂ motive parts es →
      motive (token :: enclosed parts) (.gate connective es))
    (lookUp : ∀ token hex mask parts es, Announces token .lookUp →
      SpellsMask hex es.length mask → es ≠ [] →
      List.Forall₂ (Derives place?) parts es → List.Forall₂ motive parts es →
      motive (token :: hex :: enclosed parts) (.lookUp mask es))
    {tokens : List Token} {e : Formula} (h : Derives place? tokens e) : motive tokens e := by
  refine @Derives.rec place? (fun tokens e _ => motive tokens e)
    (fun parts es _ => List.Forall₂ motive parts es) ?_ ?_ ?_ ?_ ?_ ?_ ?_ tokens e h
  · exact fun {token value} htoken => const token value htoken
  · exact fun {token p place} htoken hplace => input token p place htoken hplace
  · exact fun {token gate parts es e} htoken hmakes hes ih =>
      fixed token gate parts es e htoken hmakes hes ih
  · exact fun {token connective parts es} htoken hne hes ih =>
      gate token connective parts es htoken hne hes ih
  · exact fun {token hex mask parts es} htoken hhex hne hes ih =>
      lookUp token hex mask parts es htoken hhex hne hes ih
  · exact .nil
  · exact fun _ _ hfirst hrest => .cons hfirst hrest

/-! ## What starts with a token -/

theorem Announces.unique {token : Token} {found other : Head} (h : Announces token found)
    (hother : Announces token other) : found = other :=
  Option.some.inj ((announces_iff.1 h).symm.trans (announces_iff.1 hother))

/-- A position is no keyword. -/
theorem not_announces_of_text {token : Token} {p : Position} (h : token.text = p.token)
    (head : Head) : ¬Announces token head := by
  rw [announces_iff, h, Head.ofText?_token]
  exact nofun

variable {token : Token} {rest : List Token} {e : Formula}

theorem Derives.of_const (h : Derives place? (token :: rest) e) {value : Bool}
    (htoken : Announces token (.const value)) : rest = [] ∧ e = .const value := by
  cases h with
  | const hfound =>
    cases htoken.unique hfound
    exact ⟨rfl, rfl⟩
  | input hfound => exact absurd htoken (not_announces_of_text hfound _)
  | fixed hfound => cases htoken.unique hfound
  | gate hfound => cases htoken.unique hfound
  | lookUp hfound => cases htoken.unique hfound

theorem Derives.of_input (h : Derives place? (token :: rest) e) {p : Position}
    (htoken : token.text = p.token) :
    rest = [] ∧ ∃ place, place? p = some place ∧ e = .input place := by
  cases h with
  | input hfound hplace =>
    cases Position.token_injective (htoken.symm.trans hfound)
    exact ⟨rfl, _, hplace, rfl⟩
  | const hfound => exact absurd hfound (not_announces_of_text htoken _)
  | fixed hfound => exact absurd hfound (not_announces_of_text htoken _)
  | gate hfound => exact absurd hfound (not_announces_of_text htoken _)
  | lookUp hfound => exact absurd hfound (not_announces_of_text htoken _)

theorem Derives.of_fixed (h : Derives place? (token :: rest) e) {gate : FixedGate}
    (htoken : Announces token (.fixed gate)) :
    ∃ parts es, rest = enclosed parts ∧ gate.Makes es e ∧
      List.Forall₂ (Derives place?) parts es := by
  cases h with
  | fixed hfound hmakes hes =>
    cases htoken.unique hfound
    exact ⟨_, _, rfl, hmakes, hes⟩
  | input hfound => exact absurd htoken (not_announces_of_text hfound _)
  | const hfound => cases htoken.unique hfound
  | gate hfound => cases htoken.unique hfound
  | lookUp hfound => cases htoken.unique hfound

theorem Derives.of_gate (h : Derives place? (token :: rest) e) {connective : Connective}
    (htoken : Announces token (.gate connective)) :
    ∃ parts es, rest = enclosed parts ∧ es ≠ [] ∧ e = .gate connective es ∧
      List.Forall₂ (Derives place?) parts es := by
  cases h with
  | gate hfound hne hes =>
    cases htoken.unique hfound
    exact ⟨_, _, rfl, hne, rfl, hes⟩
  | input hfound => exact absurd htoken (not_announces_of_text hfound _)
  | const hfound => cases htoken.unique hfound
  | fixed hfound => cases htoken.unique hfound
  | lookUp hfound => cases htoken.unique hfound

theorem Derives.of_lookUp (h : Derives place? (token :: rest) e)
    (htoken : Announces token .lookUp) :
    ∃ hex mask parts es, rest = hex :: enclosed parts ∧ es ≠ [] ∧
      SpellsMask hex es.length mask ∧ e = .lookUp mask es ∧
      List.Forall₂ (Derives place?) parts es := by
  cases h with
  | lookUp hfound hhex hne hes => exact ⟨_, _, _, _, rfl, hne, hhex, rfl, hes⟩
  | input hfound => exact absurd htoken (not_announces_of_text hfound _)
  | const hfound => cases htoken.unique hfound
  | fixed hfound => cases htoken.unique hfound
  | gate hfound => cases htoken.unique hfound

/-! ## One derivation -/

/-- A token spells one mask at most for a number of arguments. -/
theorem SpellsMask.unique {hex : Token} {arguments : Nat} {mask other : Mask}
    (h : SpellsMask hex arguments mask) (hother : SpellsMask hex arguments other) :
    mask = other := by
  obtain ⟨digits, hdigits, hread⟩ := spellsMask_iff.1 h
  obtain ⟨found, hfound, hreadFound⟩ := spellsMask_iff.1 hother
  obtain rfl := Option.some.inj (hdigits.symm.trans hfound)
  exact Except.ok.inj (hread.symm.trans hreadFound)

theorem FixedGate.Makes.unique {gate : FixedGate} {es : List Formula} {e f : Formula}
    (h : gate.Makes es e) (hf : gate.Makes es f) : e = f :=
  Option.some.inj ((FixedGate.makes_iff.1 h).symm.trans (FixedGate.makes_iff.1 hf))

/-- Tokens of a formula that no other expression goes on from or ends within. -/
def StandsAlone (place? : Position → Option Nat) (x : List Token) (e : Formula) : Prop :=
  ∀ y f r s, Derives place? y f → x ++ r = y ++ s → x = y ∧ e = f

section Alone

variable {xs ys : List (List Token)} {es fs : List Formula} {r s : List Token}

theorem moreTokens_append_inj (hx : List.Forall₂ (StandsAlone place?) xs es)
    (hy : List.Forall₂ (Derives place?) ys fs) (h : moreTokens xs ++ r = moreTokens ys ++ s) :
    xs = ys ∧ es = fs := by
  induction hx generalizing ys fs with
  | nil =>
    cases hy with
    | nil => exact ⟨rfl, rfl⟩
    | cons => simp [moreTokens] at h
  | cons hfirst _ ih =>
    cases hy with
    | nil => simp [moreTokens] at h
    | cons hsame hrest =>
      simp only [moreTokens, List.cons_append, List.append_assoc, List.cons.injEq, true_and] at h
      obtain ⟨rfl, rfl⟩ := hfirst _ _ _ _ hsame h
      obtain ⟨rfl, rfl⟩ := ih hrest (List.append_cancel_left h)
      exact ⟨rfl, rfl⟩

theorem enclosed_append_inj (hx : List.Forall₂ (StandsAlone place?) xs es) (hes : es ≠ [])
    (hy : List.Forall₂ (Derives place?) ys fs) (hfs : fs ≠ [])
    (h : enclosed xs ++ r = enclosed ys ++ s) : xs = ys ∧ es = fs := by
  cases hx with
  | nil => exact absurd rfl hes
  | cons hfirst hmore =>
    cases hy with
    | nil => exact absurd rfl hfs
    | cons hsame hrest =>
      simp only [enclosed, List.cons_append, List.append_assoc, List.cons.injEq, true_and] at h
      obtain ⟨rfl, rfl⟩ := hfirst _ _ _ _ hsame h
      obtain ⟨rfl, rfl⟩ := moreTokens_append_inj hmore hrest (List.append_cancel_left h)
      exact ⟨rfl, rfl⟩

end Alone

theorem Derives.ne_nil {tokens : List Token} (h : Derives place? tokens e) : tokens ≠ [] := by
  cases h <;> exact List.cons_ne_nil _ _

/-- Two expressions with one beginning start with the same token. -/
theorem Derives.exists_cons {x y r s : List Token} (h : Derives place? y e)
    (heq : token :: x ++ r = y ++ s) : ∃ z, y = token :: z ∧ x ++ r = z ++ s := by
  obtain ⟨first, z, rfl⟩ := List.exists_cons_of_ne_nil h.ne_nil
  rw [List.cons_append, List.cons_append, List.cons.injEq] at heq
  obtain ⟨rfl, hrest⟩ := heq
  exact ⟨z, rfl, hrest⟩

/-- Every expression stands alone. -/
theorem Derives.standsAlone {x : List Token} (h : Derives place? x e) : StandsAlone place? x e := by
  refine Derives.induct ?const ?input ?fixed ?gate ?lookUp h
  case const =>
    intro token value htoken y f r s hy heq
    obtain ⟨z, rfl, -⟩ := hy.exists_cons heq
    obtain ⟨rfl, rfl⟩ := hy.of_const htoken
    exact ⟨rfl, rfl⟩
  case input =>
    intro token p place htoken hplace y f r s hy heq
    obtain ⟨z, rfl, -⟩ := hy.exists_cons heq
    obtain ⟨rfl, found, hfound, rfl⟩ := hy.of_input htoken
    cases hplace.symm.trans hfound
    exact ⟨rfl, rfl⟩
  case fixed =>
    intro token gate parts es e htoken hmakes hes ih y f r s hy heq
    obtain ⟨z, rfl, hrest⟩ := hy.exists_cons heq
    obtain ⟨others, fs, rfl, hf, hfs⟩ := hy.of_fixed htoken
    obtain ⟨rfl, rfl⟩ := enclosed_append_inj ih hmakes.ne_nil hfs hf.ne_nil hrest
    exact ⟨rfl, hmakes.unique hf⟩
  case gate =>
    intro token connective parts es htoken hne hes ih y f r s hy heq
    obtain ⟨z, rfl, hrest⟩ := hy.exists_cons heq
    obtain ⟨others, fs, rfl, hfne, rfl, hfs⟩ := hy.of_gate htoken
    obtain ⟨rfl, rfl⟩ := enclosed_append_inj ih hne hfs hfne hrest
    exact ⟨rfl, rfl⟩
  case lookUp =>
    intro token hex mask parts es htoken hhex hne hes ih y f r s hy heq
    obtain ⟨z, rfl, hrest⟩ := hy.exists_cons heq
    obtain ⟨found, other, others, fs, rfl, hfne, hfound, rfl, hfs⟩ := hy.of_lookUp htoken
    rw [List.cons_append, List.cons_append, List.cons.injEq] at hrest
    obtain ⟨rfl, hrest⟩ := hrest
    obtain ⟨rfl, rfl⟩ := enclosed_append_inj ih hne hfs hfne hrest
    cases hhex.unique hfound
    exact ⟨rfl, rfl⟩

/-- **Unambiguity.**  An expression at the front of a list of tokens ends at one place only, and it
has one formula. -/
theorem Derives.append_inj {x y r s : List Token} {f : Formula} (hx : Derives place? x e)
    (hy : Derives place? y f) (h : x ++ r = y ++ s) : x = y ∧ e = f :=
  hx.standsAlone y f r s hy h

end VoxelLogic.PinFile
