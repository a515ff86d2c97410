import SearchQuery.CommandLine
import SearchQuery.Proofs.Text

/-!
# The arguments of a build

The arguments behind `build` come in **groups**: a switch with its value, or a flag. A qualifier
group gives one qualifier, a flag holds wherever it stands.

**Theorem (`parse_buildLine`).** A command line of a settings file, `build` and groups is read as
the request with the qualifiers of the groups in their order and with the flags that occur.

The program walks over the arguments twice. As a whole it hands on those behind a command as they
were (`raws_ofArguments`), so that every command is read as its own arguments say (`parse_topLine`).
For `build` each group is one event (`readBuild_group`), and a run of them, whatever stands behind
it, is read by one group after the other (`readBuild_groups`).
-/

namespace SearchQuery

namespace CommandLine

/-! ## Groups -/

/-- A group of arguments behind `build`. -/
inductive Group where
  | text (value : Text)
  | pair (excluded : Bool) (key value : Text)
  | timezoned
  | noDefaults
deriving DecidableEq, Repr

namespace Group

/-- The switch of a group, in the spelling that groups use. -/
def name : Group → Text
  | text _ => "-t".text
  | pair false _ _ => "-Q".text
  | pair true _ _ => "-X".text
  | timezoned => "--timezoned".text
  | noDefaults => "--no-defaults".text

def switch : Group → Switch BuildSwitch
  | text _ => ⟨["-t".text, "--text".text], true, .text⟩
  | pair false _ _ => ⟨["-Q".text, "--qualifier".text], true, .qualifier⟩
  | pair true _ _ => ⟨["-X".text, "--exclude".text], true, .exclude⟩
  | timezoned => ⟨["--timezoned".text], false, .timezoned⟩
  | noDefaults => ⟨["--no-defaults".text], false, .noDefaults⟩

/-- The argument behind the switch. -/
def value? : Group → Option Text
  | text v => some v
  | pair _ k v => some (k ++ .char '=' :: v)
  | timezoned => none
  | noDefaults => none

def arguments (g : Group) : List Text := g.name :: g.value?.toList

/-- The qualifier that a group gives. -/
def qualifier? : Group → Option Qualifier
  | text v => some ⟨"text".text, v, false⟩
  | pair x k v => some ⟨trim k, trim v, x⟩
  | timezoned => none
  | noDefaults => none

/-- The value of a group does not start with a dash, and a pair has a name that is not blank. -/
def WellFormed : Group → Prop
  | text v => v.head? ≠ some (.char '-')
  | pair _ k _ => .char '=' ∉ k ∧ trim k ≠ [] ∧ k.head? ≠ some (.char '-')
  | timezoned => True
  | noDefaults => True

instance : ∀ g : Group, Decidable g.WellFormed
  | text v => inferInstanceAs (Decidable (v.head? ≠ _))
  | pair _ k _ => inferInstanceAs (Decidable (_ ∉ k ∧ trim k ≠ [] ∧ k.head? ≠ _))
  | timezoned => inferInstanceAs (Decidable True)
  | noDefaults => inferInstanceAs (Decidable True)

theorem WellFormed.head?_value {g : Group} (h : g.WellFormed) {v : Text} (hv : g.value? = some v) :
    v.head? ≠ some (.char '-') := by
  cases g with
  | text w =>
    obtain rfl := Option.some.inj hv
    exact h
  | pair x k w =>
    obtain rfl := Option.some.inj hv
    cases k with
    | nil => exact absurd rfl h.2.1
    | cons c r => exact h.2.2
  | timezoned => simp [value?] at hv
  | noDefaults => simp [value?] at hv

/-- The effect of a group on a request. -/
def apply (r : BuildRequest) (g : Group) : BuildRequest where
  qualifiers := r.qualifiers ++ (g.qualifier?.map some).toList
  timezoned := r.timezoned || g = timezoned
  noDefaults := r.noDefaults || g = noDefaults

theorem foldl_apply (r : BuildRequest) (groups : List Group) :
    groups.foldl apply r = ⟨r.qualifiers ++ (groups.filterMap qualifier?).map some,
      r.timezoned || decide (timezoned ∈ groups), r.noDefaults || decide (noDefaults ∈ groups)⟩ := by
  induction groups generalizing r with
  | nil => simp
  | cons g rest ih =>
    rw [List.foldl_cons, ih]
    cases g <;> simp [apply, qualifier?, List.filterMap_cons]

/-! ## Tokens -/

theorem name_ne_endMark (g : Group) : g.name ≠ endMark := by
  cases g with
  | text v => exact (by decide : "-t".text ≠ endMark)
  | pair x k v =>
    cases x with
    | false => exact (by decide : "-Q".text ≠ endMark)
    | true => exact (by decide : "-X".text ≠ endMark)
  | timezoned => exact (by decide : "--timezoned".text ≠ endMark)
  | noDefaults => exact (by decide : "--no-defaults".text ≠ endMark)

/-- What the name of a group is to `build`. -/
def given (g : Group) : Token BuildSwitch := .switch g.name g.switch (Token.isShort g.name) none

theorem ofArgument_name (g : Group) : Token.ofArgument buildSwitches g.name = .ok g.given := by
  cases g with
  | text v => rfl
  | pair x k v => cases x <;> rfl
  | timezoned => rfl
  | noDefaults => rfl

/-- No switch of `build` is one of the program as a whole. -/
theorem ofArgument_name_top (g : Group) :
    Token.ofArgument topSwitches g.name = .ok (.unknown g.name) := by
  cases g with
  | text v => rfl
  | pair x k v => cases x <;> rfl
  | timezoned => rfl
  | noDefaults => rfl

end Group

/-! ## Arguments one after the other -/

theorem Token.raw_ofArgument {α : Type} {table : List (Switch α)} {arg : Text} {token : Token α}
    (h : Token.ofArgument table arg = .ok token) : token.raw = arg := by
  unfold Token.ofArgument at h
  split at h
  · split at h
    · obtain rfl := Except.ok.inj h
      rfl
    · split at h
      · obtain rfl := Except.ok.inj h
        rfl
      · split at h
        · obtain rfl := Except.ok.inj h
          rfl
        · split at h
          · obtain rfl := Except.ok.inj h
            rfl
          · obtain rfl := Except.ok.inj h
            rfl
        · cases h
  · obtain rfl := Except.ok.inj h
    rfl

theorem raws_ofArguments {α : Type} {table : List (Switch α)} {args : List Text}
    {tokens : List (Token α)} (h : Token.ofArguments table args = .ok tokens) :
    tokens.map Token.raw = args := by
  induction args generalizing tokens with
  | nil =>
    obtain rfl := Except.ok.inj h
    rfl
  | cons arg rest ih =>
    rw [Token.ofArguments] at h
    -- Behind the end mark every argument is a word.
    by_cases hm : arg = endMark
    · rw [if_pos hm] at h
      obtain rfl := Except.ok.inj h
      simp [Function.comp_def, Token.raw, hm]
    · rw [if_neg hm] at h
      split at h
      · cases h
      · rename_i token htoken
        split at h
        · cases h
        · rename_i ts hts
          obtain rfl := Except.ok.inj h
          rw [List.map_cons, Token.raw_ofArgument htoken, ih hts]

theorem ofArguments_cons {α : Type} {table : List (Switch α)} {arg : Text} {token : Token α}
    (hm : arg ≠ endMark) (h : Token.ofArgument table arg = .ok token) (rest : List Text) :
    Token.ofArguments table (arg :: rest) = (Token.ofArguments table rest).map (token :: ·) := by
  rw [Token.ofArguments, if_neg hm, h]
  cases Token.ofArguments table rest <;> rfl

theorem ofArguments_word {α : Type} {table : List (Switch α)} {arg : Text}
    (h : arg.head? ≠ some (.char '-')) (rest : List Text) :
    Token.ofArguments table (arg :: rest) =
      (Token.ofArguments table rest).map (.word arg :: ·) := by
  refine ofArguments_cons ?_ (Token.ofArgument_of_head h) rest
  rintro rfl
  exact h rfl

/-- The tokens of a group, where its name is a `token`. -/
def Group.tokens {α : Type} (token : Group → Token α) (g : Group) : List (Token α) :=
  token g :: g.value?.toList.map .word

/-- The tokens of groups in front of other arguments, when `token` says what their names are. -/
theorem ofArguments_groups {α : Type} {table : List (Switch α)} {token : Group → Token α}
    (ht : ∀ g, Token.ofArgument table g.name = .ok (token g)) {groups : List Group}
    (hg : ∀ g ∈ groups, g.WellFormed) (args : List Text) :
    Token.ofArguments table (groups.flatMap Group.arguments ++ args) =
      (Token.ofArguments table args).map (groups.flatMap (Group.tokens token) ++ ·) := by
  induction groups with
  | nil =>
    rw [List.flatMap_nil, List.nil_append]
    cases Token.ofArguments table args <;> rfl
  | cons g rest ih =>
    obtain ⟨hw, hr⟩ := List.forall_mem_cons.1 hg
    rw [List.flatMap_cons, List.flatMap_cons, List.append_assoc, Group.arguments, List.cons_append,
      ofArguments_cons g.name_ne_endMark (ht g), Group.tokens]
    cases hv : g.value? with
    | none =>
      rw [Option.toList_none, List.nil_append, ih hr]
      cases Token.ofArguments table args <;> rfl
    | some v =>
      rw [Option.toList_some, List.cons_append, List.nil_append,
        ofArguments_word (hw.head?_value hv), ih hr]
      cases Token.ofArguments table args <;> rfl

/-! ## Requests -/

theorem scan_group (g : Group) (rest : List (Token BuildSwitch)) :
    Event.scan buildSwitches .unwanted
      (g.given :: g.value?.toList.map .word ++ rest) =
    .given g.switch g.value? :: Event.scan buildSwitches .unwanted rest := by
  cases g with
  | text v => rfl
  | pair x k v => cases x <;> rfl
  | timezoned =>
    simp [Event.scan, Event.bundleOf, Group.given, Group.switch, Group.value?, Words.afterOption]
  | noDefaults =>
    simp [Event.scan, Event.bundleOf, Group.given, Group.switch, Group.value?, Words.afterOption]

theorem Group.read_pair {x y : Bool} {k v : Text} (h : (pair x k v).WellFormed) :
    Qualifier.read (k ++ .char '=' :: v) y = .ok ⟨trim k, trim v, y⟩ := by
  rw [Qualifier.read, cutAt_append h.1]
  exact if_neg h.2.1

theorem giveBuild_group {g : Group} (h : g.WellFormed) (r : BuildRequest) :
    giveBuild r g.switch g.value? = .ok (g.apply r) := by
  cases g with
  | text v =>
    simp [giveBuild, BuildRequest.add, Key.name, Group.switch, Group.value?, Group.apply,
      Group.qualifier?]
  | pair x k v =>
    cases x <;>
      simp [giveBuild, readSwitchValue, readPair, Group.read_pair h, Except.map, BuildRequest.add,
        Group.switch, Group.value?, Group.apply, Group.qualifier?]
  | timezoned => simp [giveBuild, Group.switch, Group.apply, Group.qualifier?]
  | noDefaults => simp [giveBuild, Group.switch, Group.apply, Group.qualifier?]

/-- **One group** is one step of reading. -/
theorem readBuild_group {g : Group} (h : g.WellFormed) (r : BuildRequest)
    (rest : List (Token BuildSwitch)) :
    readBuild r [] (Event.scan buildSwitches .unwanted (g.tokens Group.given ++ rest)) =
    readBuild (g.apply r) [] (Event.scan buildSwitches .unwanted rest) := by
  rw [Group.tokens, scan_group, readBuild, giveBuild_group h]

/-- **A run of groups**, by one group after the other. -/
theorem readBuild_groups {groups : List Group} (hg : ∀ g ∈ groups, g.WellFormed)
    (r : BuildRequest) (rest : List (Token BuildSwitch)) :
    readBuild r [] (Event.scan buildSwitches .unwanted
      (groups.flatMap (Group.tokens Group.given) ++ rest)) =
    readBuild (groups.foldl Group.apply r) [] (Event.scan buildSwitches .unwanted rest) := by
  induction groups generalizing r with
  | nil => rfl
  | cons g groups ih =>
    obtain ⟨hw, hr⟩ := List.forall_mem_cons.1 hg
    rw [List.flatMap_cons, List.append_assoc, readBuild_group hw, ih hr, List.foldl_cons]

/-- The request that groups make. -/
def buildRequest (groups : List Group) : BuildRequest :=
  ⟨(groups.filterMap Group.qualifier?).map some, .timezoned ∈ groups, .noDefaults ∈ groups⟩

/-- The request that is read from the arguments of a build. -/
def readRequest (args : List Text) : Reading BuildRequest :=
  readBuild ⟨[], false, false⟩ [] (Event.ofArguments buildSwitches .unwanted args)

theorem readRequest_groups_append {groups : List Group} (hg : ∀ g ∈ groups, g.WellFormed)
    (args : List Text) :
    readRequest (groups.flatMap Group.arguments ++ args) =
      readBuild (buildRequest groups) [] (Event.ofArguments buildSwitches .unwanted args) := by
  rw [readRequest, Event.ofArguments, Event.ofArguments, ofArguments_groups Group.ofArgument_name hg]
  cases Token.ofArguments buildSwitches args with
  | error f => rfl
  | ok tokens =>
    simp only [Except.map, readBuild_groups hg, Group.foldl_apply]
    simp [buildRequest]

theorem readRequest_groups {groups : List Group} (hg : ∀ g ∈ groups, g.WellFormed) :
    readRequest (groups.flatMap Group.arguments) = .ok (buildRequest groups, []) := by
  have h := readRequest_groups_append hg []
  rwa [List.append_nil] at h

/-! ## Whole command lines -/

/-- The arguments in front of a command: whether to log, and which settings file to use. -/
def topLine (verbose : Bool) (config : Option Text) : List Text :=
  (if verbose then ["-v".text] else []) ++
    (config.map fun c => ["--config".text, c]).getD []

/-- What a command of the program reads from the arguments behind its name. -/
def readCommand (name : Text) (args : List Text) : Reading Command :=
  choose .top "command".text [("build".text, build), ("defaults".text, defaults)] name args

/-- What happens on a command line with a command. -/
theorem events_topLine (verbose : Bool) {config : Option Text}
    (hc : ∀ c ∈ config, c.head? ≠ some (.char '-')) {name : Text}
    (hn : name.head? ≠ some (.char '-')) (args : List Text) :
    Event.ofArguments topSwitches .command (topLine verbose config ++ name :: args) =
      match Token.ofArguments topSwitches args with
      | .error f => [.fault f]
      | .ok _ =>
        (if verbose then [.given ⟨["-v".text, "--verbose".text], false, .verbose⟩ none] else []) ++
          (config.map fun c => Event.given ⟨["--config".text], true, .config⟩ (some c)).toList ++
          [.command name args] := by
  have hverbose : Token.ofArgument topSwitches "-v".text =
      .ok (.switch "-v".text ⟨["-v".text, "--verbose".text], false, .verbose⟩ true none) := rfl
  have hconfig : Token.ofArgument topSwitches "--config".text =
      .ok (.switch "--config".text ⟨["--config".text], true, .config⟩ false none) := rfl
  -- The option, its value and the name are one token each, whatever is behind them.
  have htail : Token.ofArguments topSwitches
        ((config.map fun c => ["--config".text, c]).getD [] ++ name :: args) =
      (Token.ofArguments topSwitches args).map fun tokens =>
        (config.map fun c => [.switch "--config".text ⟨["--config".text], true, .config⟩ false none,
          .word c]).getD [] ++ .word name :: tokens := by
    cases config with
    | none => exact ofArguments_word hn args
    | some c =>
      simp only [Option.map_some, Option.getD_some, List.cons_append, List.nil_append]
      rw [ofArguments_cons (by decide) hconfig, ofArguments_word (hc c rfl), ofArguments_word hn]
      cases Token.ofArguments topSwitches args <;> rfl
  rw [Event.ofArguments, topLine, List.append_assoc]
  cases verbose with
  | false =>
    rw [if_neg Bool.false_ne_true, List.nil_append, htail]
    cases htokens : Token.ofArguments topSwitches args with
    | error f => rfl
    | ok tokens =>
      cases config <;> simp [Except.map, Event.scan, Event.bundleOf, Words.afterOption,
        raws_ofArguments htokens]
  | true =>
    rw [if_pos rfl, List.cons_append, List.nil_append, ofArguments_cons (by decide) hverbose, htail]
    cases htokens : Token.ofArguments topSwitches args with
    | error f => rfl
    | ok tokens =>
      cases config <;> simp [Except.map, Event.scan, Event.bundleOf, Words.afterOption,
        raws_ofArguments htokens]

/-- **A command is read as its own arguments say**, whatever they are: what is left over of them is
complained about by the program as a whole. -/
theorem parse_topLine (verbose : Bool) {config : Option Text}
    (hc : ∀ c ∈ config, c.head? ≠ some (.char '-')) {name : Text}
    (hn : name.head? ≠ some (.char '-')) (args : List Text) :
    parse (topLine verbose config ++ name :: args) =
      match Token.ofArguments topSwitches args, readCommand name args with
      | .error f, _ => .error (.refused .top f)
      | .ok _, .error stop => .error stop
      | .ok _, .ok (c, []) => .ok ⟨config.map Path.ofText, verbose, c⟩
      | .ok _, .ok (_, left) => .error (.refused .top (.unrecognized left)) := by
  rw [parse, events_topLine verbose hc hn args]
  cases Token.ofArguments topSwitches args with
  | error f => rfl
  | ok tokens =>
    -- The options are read one by one until the command, whose arguments are its own.
    have hread : readTop none false []
        ((if verbose then [.given ⟨["-v".text, "--verbose".text], false, .verbose⟩ none] else []) ++
          (config.map fun c => Event.given ⟨["--config".text], true, .config⟩ (some c)).toList ++
          [.command name args]) =
        (readCommand name args).map fun p => (⟨config.map Path.ofText, verbose, p.1⟩, p.2) := by
      cases verbose <;> cases config <;> rfl
    simp only [hread]
    cases readCommand name args with
    | error stop => rfl
    | ok p =>
      obtain ⟨c, left⟩ := p
      cases left <;> rfl

theorem parse_topLine_build (verbose : Bool) {config : Option Text}
    (hc : ∀ c ∈ config, c.head? ≠ some (.char '-')) (args : List Text) :
    parse (topLine verbose config ++ "build".text :: args) =
      match Token.ofArguments topSwitches args, readRequest args with
      | .error f, _ => .error (.refused .top f)
      | .ok _, .error stop => .error stop
      | .ok _, .ok (r, []) => .ok ⟨config.map Path.ofText, verbose, .build r⟩
      | .ok _, .ok (_, left) => .error (.refused .top (.unrecognized left)) := by
  have hread : readCommand "build".text args =
      (readRequest args).map fun p => (.build p.1, p.2) := rfl
  rw [parse_topLine verbose hc (by decide), hread]
  cases Token.ofArguments topSwitches args with
  | error f => rfl
  | ok tokens =>
    cases readRequest args with
    | error stop => rfl
    | ok p =>
      obtain ⟨r, left⟩ := p
      cases left <;> rfl

/-- The arguments of the program for a settings file and groups behind `build`. -/
def buildLine (config : Text) (groups : List Group) : List Text :=
  "--config".text :: config :: "build".text :: groups.flatMap Group.arguments

/-- **A build is read as its groups say**, wherever the flags stand. -/
theorem parse_buildLine {config : Text} (hc : config.head? ≠ some (.char '-'))
    {groups : List Group} (hg : ∀ g ∈ groups, g.WellFormed) :
    parse (buildLine config groups) =
      .ok ⟨some (Path.ofText config), false, .build (buildRequest groups)⟩ := by
  have htop := ofArguments_groups Group.ofArgument_name_top hg []
  rw [List.append_nil] at htop
  have hconfig : ∀ c ∈ some config, c.head? ≠ some (.char '-') := by simpa using hc
  have h := parse_topLine_build false hconfig (groups.flatMap Group.arguments)
  rw [htop, readRequest_groups hg] at h
  exact h

end CommandLine

end SearchQuery
