import VoxelLogic.Proofs.Command.Arguments

/-!
# Where options come from

An option that has been collected from arguments takes its value.  If it is one that has a value,
the value stands in the arguments, either with the name of the option or right behind it, and not
behind `--`.

* `Switch.Names`: how an argument names an option that has a value.
* `Gives`: arguments that give a value to an option.
* `Collected.IsFrom`: what has been collected on the way through some arguments.
* `isFrom_addPending`, `isFrom_addArgument`: one argument.
* `allFrom_addAll`: all arguments.
* `gives_of_ofArguments`, `hasSites_of_ofArguments`: the file that a command writes, and the numbers
  of pins that a random circuit is to have.
-/

namespace VoxelLogic

/-- Short names of options without a value. -/
def Switch.AreFlags (letters : List Char) : Prop :=
  ∀ l ∈ letters, ∃ flag : Switch, flag.short? = some l ∧ flag.hasValue = false

theorem Switch.AreFlags.append_singleton {letters : List Char} {flag : Switch} {letter : Char}
    (h : AreFlags letters) (hletter : flag.short? = some letter) (hvalue : flag.hasValue = false) :
    AreFlags (letters ++ [letter]) := by
  rw [AreFlags, List.forall_mem_append, List.forall_mem_singleton]
  exact ⟨h, flag, hletter, hvalue⟩

/-- An argument names an option that has a value, and may have the value in it.  Before a short name
there can be the short names of options that have none. -/
inductive Switch.Names (switch : Switch) (argument : String) : Option String → Prop where
  | long (h : argument.toList = '-' :: '-' :: switch.long.toList) : switch.Names argument none
  | longWith {value : List Char}
      (h : argument.toList = '-' :: '-' :: (switch.long.toList ++ '=' :: value)) :
    switch.Names argument (some (String.ofList value))
  | short {letters : List Char} {letter : Char} (hletters : AreFlags letters)
      (hletter : switch.short? = some letter)
      (h : argument.toList = '-' :: (letters ++ [letter])) : switch.Names argument none
  | shortWith {letters value : List Char} {letter : Char} (hletters : AreFlags letters)
      (hletter : switch.short? = some letter) (hvalue : value.head? ≠ some '=')
      (h : argument.toList = '-' :: (letters ++ letter :: value)) :
    switch.Names argument (some (String.ofList value))
  | shortAssigned {letters value : List Char} {letter : Char} (hletters : AreFlags letters)
      (hletter : switch.short? = some letter)
      (h : argument.toList = '-' :: (letters ++ letter :: '=' :: value)) :
    switch.Names argument (some (String.ofList value))

namespace Command

/-- The file that a command is to write. -/
def output? : Command → Option String
  | summarize _ => none
  | compile _ _ output => output
  | decode _ output => output
  | generate _ _ _ _ output => output

/-- There are sites for the pins of the random circuit that a command asks for. -/
def HasSites : Command → Prop
  | generate inputs outputs .. => inputs ≤ Position.siteCount ∧ outputs ≤ Position.siteCount
  | _ => True

end Command

namespace Request

/-- An argument names an option, and the value of the option is in the argument or is the next
argument.  Behind `--` there are no options. -/
def Gives (switch : Switch) (arguments : List String) (value : String) : Prop :=
  ∃ before argument after, "--" ∉ before ∧
    (switch.Names argument (some value) ∧ arguments = before ++ argument :: after ∨
      switch.Names argument none ∧ arguments = before ++ argument :: value :: after)

variable {switch : Switch} {arguments : List String} {argument value : String}

/-- What follows the arguments does not take a value back. -/
theorem Gives.append (h : Gives switch arguments value) (more : List String) :
    Gives switch (arguments ++ more) value := by
  obtain ⟨before, argument, after, hplain, ⟨hnames, rfl⟩ | ⟨hnames, rfl⟩⟩ := h
  · exact ⟨before, argument, after ++ more, hplain, .inl ⟨hnames, by simp⟩⟩
  · exact ⟨before, argument, after ++ more, hplain, .inr ⟨hnames, by simp⟩⟩

/-- An argument before the others does not take a value back unless it is `--`. -/
theorem Gives.cons (h : Gives switch arguments value) {first : String} (hfirst : first ≠ "--") :
    Gives switch (first :: arguments) value := by
  obtain ⟨before, argument, after, hplain, hgives⟩ := h
  refine ⟨first :: before, argument, after, ?_, ?_⟩
  · rw [List.mem_cons, not_or]
    exact ⟨hfirst.symm, hplain⟩
  · simpa using hgives

/-! ## One argument -/

namespace Collected

/-- Every option takes its value, and the value of an option that has one is given by the
arguments. -/
def AllFrom (arguments : List String) (c : Collected) : Prop :=
  ∀ o ∈ c.options, takes o.1 o.2 = true ∧ (o.1.hasValue = true → Gives o.1 arguments o.2)

/-- What has been collected on the way through some arguments, none of which is `--`.  An option
that waits for its value is named by the last of them. -/
structure IsFrom (arguments : List String) (c : Collected) : Prop where
  plain : "--" ∉ arguments
  allFrom : c.AllFrom arguments
  pending : ∀ switch, c.pending = some switch →
    ∃ before argument, arguments = before ++ [argument] ∧ switch.Names argument none

variable {c d : Collected} {task : Task}

theorem AllFrom.append (h : c.AllFrom arguments) (more : List String) :
    c.AllFrom (arguments ++ more) :=
  fun o ho => ⟨(h o ho).1, fun hvalue => ((h o ho).2 hvalue).append more⟩

/-- An option is added with a value that it takes. -/
theorem allFrom_add (h : c.AllFrom arguments)
    (hgives : switch.hasValue = true → Gives switch arguments value)
    (hadd : c.add switch value = .ok d) : d.AllFrom arguments ∧ d.pending = none := by
  rw [add] at hadd
  split at hadd
  · cases hadd
  · next htakes =>
    cases hadd
    rw [Bool.or_eq_true, not_or, Bool.not_eq_true', Bool.not_eq_false] at htakes
    refine ⟨fun o ho => ?_, rfl⟩
    rcases List.mem_cons.1 ho with rfl | ho
    · exact ⟨htakes.2, hgives⟩
    · exact h o ho

/-- The option that waits for a value gets the next argument. -/
theorem isFrom_addPending (h : c.IsFrom arguments) (hpending : c.pending = some switch)
    (hadd : c.addPending switch argument = .ok d) : d.IsFrom (arguments ++ [argument]) := by
  obtain ⟨before, name, rfl, hnames⟩ := h.pending switch hpending
  rw [addPending] at hadd
  split at hadd
  · cases hadd
  · next hdash =>
    have hplain : argument ≠ "--" := by
      rintro rfl
      exact hdash '-' [] rfl
    have hgives : Gives switch (before ++ [name] ++ [argument]) argument :=
      ⟨before, name, [], fun hmem => h.plain (List.mem_append_left _ hmem),
        .inr ⟨hnames, by simp⟩⟩
    obtain ⟨hall, hnone⟩ := allFrom_add (h.allFrom.append [argument]) (fun _ => hgives) hadd
    refine ⟨?_, hall, fun switch hswitch => ?_⟩
    · rw [List.mem_append, List.mem_singleton, not_or]
      exact ⟨h.plain, hplain.symm⟩
    · rw [hnone] at hswitch
      cases hswitch

/-- What taking options from an argument leaves: they are given by the arguments, and one that waits
for its value is named by the argument. -/
structure TakenFrom (arguments : List String) (argument : String) (d : Collected) : Prop where
  allFrom : d.AllFrom arguments
  pending : ∀ switch, d.pending = some switch → switch.Names argument none

theorem takenFrom_add (h : c.AllFrom arguments)
    (hgives : switch.hasValue = true → Gives switch arguments value)
    (hadd : c.add switch value = .ok d) : d.TakenFrom arguments argument := by
  obtain ⟨hall, hnone⟩ := allFrom_add h hgives hadd
  refine ⟨hall, fun switch hswitch => ?_⟩
  rw [hnone] at hswitch
  cases hswitch

section Argument

variable (hgives : ∀ switch value, Switch.Names switch argument (some value) →
  Gives switch arguments value)

include hgives

/-- An option with its long name. -/
theorem takenFrom_addLong (name : List Char) (text : Option (List Char)) (h : c.AllFrom arguments)
    (hargument : argument.toList = '-' :: '-' :: (name ++ (text.map ('=' :: ·)).getD []))
    (hadd : c.addLong task (String.ofList name) (text.map String.ofList) = .ok d) :
    d.TakenFrom arguments argument := by
  rw [addLong] at hadd
  split at hadd
  · cases hadd
  · next switch hswitch =>
    have hfound : switch.long = String.ofList name := by simpa using List.find?_some hswitch
    have hlong : switch.long.toList = name := by rw [hfound, String.toList_ofList]
    split at hadd
    · next value htext =>
      obtain ⟨text, rfl, rfl⟩ := Option.map_eq_some_iff.1 htext
      refine takenFrom_add h (fun _ => hgives _ _ (.longWith ?_)) hadd
      rw [hargument, hlong]
      rfl
    · next htext =>
      obtain rfl := Option.map_eq_none_iff.1 htext
      cases hadd
      refine ⟨h, fun other hother => ?_⟩
      obtain rfl := Option.some.inj hother
      refine .long ?_
      rw [hargument, hlong]
      simp
    · cases hadd
    · next hflag _ =>
      split at hadd
      · cases hadd
      · refine takenFrom_add h (fun hvalue => ?_) hadd
        rw [hflag] at hvalue
        cases hvalue

/-- Options with their short names.  The induction is on the letters that are left of the
argument; those before them are options without a value. -/
theorem takenFrom_addShort (before : List Char) {letters : List Char}
    (h : c.TakenFrom arguments argument)
    (hbefore : Switch.AreFlags before)
    (hargument : argument.toList = '-' :: (before ++ letters))
    (hadd : c.addShort task letters = .ok d) : d.TakenFrom arguments argument := by
  induction letters generalizing c before with
  | nil =>
    rw [addShort] at hadd
    cases hadd
    exact h
  | cons letter rest ih =>
    rw [addShort] at hadd
    split at hadd
    · cases hadd
    · next switch hswitch =>
      have hletter : switch.short? = some letter := by simpa using List.find?_some hswitch
      split at hadd
      · cases hadd
      · split at hadd
        · split at hadd
          · cases hadd
            refine ⟨h.allFrom, fun other hother => ?_⟩
            obtain rfl := Option.some.inj hother
            exact .short hbefore hletter hargument
          · next value =>
            have hnames := Switch.Names.shortAssigned hbefore hletter hargument
            exact takenFrom_add h.allFrom (fun _ => hgives _ _ hnames) hadd
          · next hassigned =>
            refine takenFrom_add h.allFrom (fun _ => hgives _ _ ?_) hadd
            refine .shortWith hbefore hletter (fun hhead => ?_) hargument
            obtain ⟨value, rfl⟩ := List.head?_eq_some_iff.1 hhead
            exact hassigned value rfl
        · next hflag =>
          obtain ⟨next, hnext, hrest⟩ := bind_eq_ok_iff.1 hadd
          have hvalue : switch.hasValue = false := Bool.not_eq_true _ |>.mp hflag
          have htaken : next.TakenFrom arguments argument :=
            takenFrom_add h.allFrom (fun hvalue => absurd hvalue hflag) hnext
          refine ih (before ++ [letter]) htaken ?_ ?_ hrest
          · exact hbefore.append_singleton hletter hvalue
          · rw [hargument, List.append_assoc]
            rfl

/-- An argument that is not the value of an option is options or a file. -/
theorem takenFrom_addArgument (h : c.TakenFrom arguments argument)
    (hadd : c.addArgument task argument = .ok d) : d.TakenFrom arguments argument := by
  rw [addArgument] at hadd
  split at hadd
  · next text htext =>
    have hargument : argument.toList =
        '-' :: '-' :: (text.takeWhile (· != '=') ++ text.dropWhile (· != '=')) := by
      rw [htext, List.takeWhile_append_dropWhile]
    split at hadd
    · next hname =>
      rw [hname] at hargument
      exact takenFrom_addLong hgives _ none h.allFrom hargument hadd
    · next mark value hname =>
      obtain rfl : mark = '=' := by
        simpa [hname] using List.head?_dropWhile_not (· != '=') text
      rw [hname] at hargument
      exact takenFrom_addLong hgives _ (some value) h.allFrom hargument hadd
  · next htext =>
    exact takenFrom_addShort hgives [] h nofun htext hadd
  · rw [addFile] at hadd
    split at hadd
    · cases hadd
    · cases hadd
      exact ⟨h.allFrom, h.pending⟩

end Argument

/-- What an argument adds comes from the arguments up to it. -/
theorem isFrom_addArgument (h : c.IsFrom arguments) (hpending : c.pending = none)
    (hargument : argument ≠ "--") (hadd : c.addArgument task argument = .ok d) :
    d.IsFrom (arguments ++ [argument]) := by
  have hgives (switch : Switch) (value : String) (hnames : switch.Names argument (some value)) :
      Gives switch (arguments ++ [argument]) value :=
    ⟨arguments, argument, [], h.plain, .inl ⟨hnames, rfl⟩⟩
  have hnone : ∀ switch, c.pending = some switch → switch.Names argument none := by
    rw [hpending]
    nofun
  have htaken := takenFrom_addArgument hgives ⟨h.allFrom.append [argument], hnone⟩ hadd
  refine ⟨?_, htaken.allFrom, fun switch hswitch => ?_⟩
  · rw [List.mem_append, List.mem_singleton, not_or]
    exact ⟨h.plain, hargument.symm⟩
  · exact ⟨arguments, argument, rfl, htaken.pending switch hswitch⟩

/-! ## All arguments -/

/-- Files leave the options as they are. -/
theorem allFrom_addFiles {files : List String} (h : c.AllFrom arguments)
    (hadd : c.addFiles task files = .ok d) : d.AllFrom arguments := by
  induction files generalizing c with
  | nil =>
    rw [addFiles] at hadd
    cases hadd
    exact h
  | cons file files ih =>
    obtain ⟨next, hnext, hrest⟩ := bind_eq_ok_iff.1 hadd
    refine ih ?_ hrest
    rw [addFile] at hnext
    split at hnext
    · cases hnext
    · cases hnext
      exact h

/-- What is collected from all arguments is given by them.  The induction is on the arguments that
are left; those before them give what has been collected. -/
theorem allFrom_addAll {rest : List String} (h : c.IsFrom arguments)
    (hadd : c.addAll task rest = .ok d) : d.AllFrom (arguments ++ rest) := by
  induction rest generalizing c arguments with
  | nil =>
    rw [addAll] at hadd
    split at hadd
    · cases hadd
    · cases hadd
      exact h.allFrom.append []
  | cons argument rest ih =>
    rw [List.append_cons]
    rw [addAll] at hadd
    split at hadd
    · next switch hpending =>
      obtain ⟨next, hnext, hrest⟩ := bind_eq_ok_iff.1 hadd
      exact ih (isFrom_addPending h hpending hnext) hrest
    · next hpending =>
      split at hadd
      · exact (allFrom_addFiles (h.allFrom.append [argument]) hadd).append rest
      · next hargument =>
        obtain ⟨next, hnext, hrest⟩ := bind_eq_ok_iff.1 hadd
        exact ih (isFrom_addArgument h hpending hargument hnext) hrest

theorem isFrom_empty : empty.IsFrom [] where
  plain := List.not_mem_nil
  allFrom := nofun
  pending := nofun

/-- What ends the way through the arguments is a request for help or a mistake. -/
theorem eq_of_addAll_eq_error {rest : List String} {request : Request}
    (h : c.addAll task rest = .error request) : request = .help ∨ request = .misuse := by
  have hfile (c : Collected) (file : String) (h : c.addFile task file = .error request) :
      request = .help ∨ request = .misuse := by
    rw [addFile] at h
    split at h <;> cases h
    exact .inr rfl
  have hfiles (files : List String) (c : Collected) (h : c.addFiles task files = .error request) :
      request = .help ∨ request = .misuse := by
    induction files generalizing c with
    | nil => cases h
    | cons file files ih =>
      rcases bind_eq_error_iff.1 h with h | ⟨next, -, h⟩
      · exact hfile c file h
      · exact ih next h
  induction rest generalizing c with
  | nil =>
    rw [addAll] at h
    split at h <;> cases h
    exact .inr rfl
  | cons argument rest ih =>
    rw [addAll] at h
    split at h
    · next switch _ =>
      rcases bind_eq_error_iff.1 h with h | ⟨next, -, h⟩
      · have hkeeps := keeps_addPending c switch argument
        rwa [h] at hkeeps
      · exact ih h
    · split at h
      · exact hfiles rest c h
      · rcases bind_eq_error_iff.1 h with h | ⟨next, -, h⟩
        · rcases keeps_addArgument c task argument with hkeeps | heq
          · rwa [h] at hkeeps
          · exact hfile c argument (heq.symm.trans h)
        · exact ih h

end Collected

/-! ## Commands -/

section Command

variable {c : Collected} {task : Task} {command : Command}

/-- A text that reads as a number within a bound reads as the same number within any other. -/
theorem le_of_number? {largest bound n : Nat} {text : String} (h : number? largest text = some n)
    (hbound : (number? bound text).isSome = true) : n ≤ bound := by
  obtain ⟨m, hm⟩ := Option.isSome_iff_exists.1 hbound
  rw [number?, Option.filter_eq_some_iff] at h hm
  obtain rfl := Option.some.inj (h.1.symm.trans hm.1)
  exact of_decide_eq_true hm.2

theorem Collected.AllFrom.of_lookup (h : c.AllFrom arguments)
    (hvalue : c.options.lookup switch = some value) :
    takes switch value = true ∧ (switch.hasValue = true → Gives switch arguments value) := by
  obtain ⟨before, after, hoptions, -⟩ := List.lookup_eq_some_iff.1 hvalue
  exact h (switch, value) (hoptions ▸ List.mem_append_right _ List.mem_cons_self)

/-- The number of an option is a number that it takes, or the default. -/
theorem Collected.AllFrom.number_le (h : c.AllFrom arguments) {bound default : Nat}
    (htakes : ∀ value, takes switch value = (number? bound value).isSome)
    (hdefault : default ≤ bound) : c.number switch default ≤ bound := by
  rw [Collected.number]
  cases hnumber : (c.options.lookup switch).bind (number? (UInt64.size - 1)) with
  | none => exact hdefault
  | some n =>
    obtain ⟨value, hvalue, hn⟩ := Option.bind_eq_some_iff.1 hnumber
    exact le_of_number? hn ((htakes value).symm.trans (h.of_lookup hvalue).1)

theorem Collected.AllFrom.hasSites (h : c.AllFrom arguments)
    (hcommand : c.command? task = some command) : command.HasSites := by
  unfold Collected.command? at hcommand
  split at hcommand <;> cases hcommand
  case h_4 => exact ⟨h.number_le (fun _ => rfl) (by decide), h.number_le (fun _ => rfl) (by decide)⟩
  all_goals exact trivial

theorem Collected.AllFrom.gives (h : c.AllFrom arguments)
    (hcommand : c.command? task = some command) {path : String}
    (hpath : command.output? = some path) : Gives .output arguments path := by
  have houtput : c.options.lookup .output = some path := by
    unfold Collected.command? at hcommand
    split at hcommand <;> cases hcommand
    case h_1 => cases hpath
    all_goals exact hpath
  exact (h.of_lookup houtput).2 rfl

/-- Help and misuse are no commands. -/
theorem ofHelp_ne_run (names : List String) : ofHelp names ≠ .run command := by
  unfold ofHelp
  split
  · nofun
  · split <;> nofun
  · nofun

/-- Arguments that ask for a command name its task, and the others say what has been collected. -/
theorem exists_allFrom_of_ofArguments (h : ofArguments arguments = .run command) :
    ∃ name rest task c, arguments = name :: rest ∧ name ≠ "--" ∧ Collected.AllFrom rest c ∧
      c.command? task = some command := by
  cases arguments with
  | nil => cases h
  | cons name rest =>
    rw [ofArguments] at h
    split at h
    · next task htask =>
      rw [ofTask] at h
      split at h
      · next request hrequest =>
        obtain rfl | rfl := Collected.eq_of_addAll_eq_error hrequest <;> cases h
      · next c hc =>
        split at h
        · cases h
        · next hcommand =>
          cases h
          refine ⟨name, rest, task, c, rfl, ?_, ?_, hcommand⟩
          · rintro rfl
            cases htask
          · exact Collected.allFrom_addAll Collected.isFrom_empty hc
    · split at h
      · exact absurd h (ofHelp_ne_run rest)
      · split at h
        · cases h
        · split at h
          · split at h <;> cases h
          · cases h

/-- The file that a command writes is given with the option for it. -/
theorem gives_of_ofArguments (h : ofArguments arguments = .run command) {path : String}
    (hpath : command.output? = some path) : Gives .output arguments path := by
  obtain ⟨name, rest, task, c, rfl, hname, hall, hcommand⟩ := exists_allFrom_of_ofArguments h
  exact (hall.gives hcommand hpath).cons hname

/-- There are sites for the pins of every random circuit that is asked for. -/
theorem hasSites_of_ofArguments (h : ofArguments arguments = .run command) : command.HasSites := by
  obtain ⟨name, rest, task, c, -, -, hall, hcommand⟩ := exists_allFrom_of_ofArguments h
  exact hall.hasSites hcommand

end Command

end Request

end VoxelLogic
