import SearchQuery.Proofs.Build
import SearchQuery.Proofs.Settings.Faults

/-!
# How a run ends

**Theorem (`run_ends`).** A run ends with code 0 or 1, with code 2 when its arguments are refused,
or a failure leaves it; and the failures that leave it are `Leaving`: the system refuses a path, the
settings file is not UTF-8 or has a whole number with too many digits, or a switch for a qualifier
has no value. Settings that are not a document of settings end every command that needs them with
code 1, nothing on the output and one report of an error.

The failures are followed upwards. What a call on the settings can fail with is `Faulty`. A command
adds the failures of qualifiers, which are all reported, and the switch without a value. An
assembly of qualifiers never breaks down, and a command that stores always has something to store
(`filled_of_parse`), so the failures of both cannot occur.

That such settings end a run with a report does not hold of all that are unusable: bytes that are
no UTF-8 leave it (`run_ends_undecodable`).
-/

namespace SearchQuery

/-! ## Requests that can be read -/

/-- A command that stores has something to store. -/
def Command.Filled : Command → Prop
  | .build _ => True
  | .set pairs => pairs ≠ []
  | .clear => True
  | .show => True

namespace CommandLine

/-- Whatever command is read, it is filled. -/
def ReadsFilled (read : List Text → Reading Command) : Prop :=
  ∀ args p, read args = .ok p → p.1.Filled

theorem readsFilled_build : ReadsFilled build := by
  intro args p h
  obtain ⟨a, -, rfl⟩ := Except.map_eq_ok h
  trivial

theorem readsFilled_set : ReadsFilled set := by
  intro args p h
  unfold set at h
  split at h
  · cases h
  · cases h
  next pairs left hne hread =>
    cases h
    exact hne

theorem readsFilled_bare {page : Page} {command : Command} (hc : command.Filled) :
    ReadsFilled (bare page command) := by
  intro args p h
  obtain ⟨a, -, rfl⟩ := Except.map_eq_ok h
  exact hc

theorem filled_of_choose {page : Page} {title name : Text} {args : List Text}
    {choices : List (Text × (List Text → Reading Command))} (hc : ∀ c ∈ choices, ReadsFilled c.2)
    {p : Command × List Text} (h : choose page title choices name args = .ok p) : p.1.Filled := by
  unfold choose at h
  split at h
  next read hlookup =>
    obtain ⟨front, back, rfl, -⟩ := List.lookup_eq_some_iff.1 hlookup
    exact hc (name, read) (by simp) args p h
  next => cases h

theorem filled_of_readDefaults {left : List Text} {events : List (Event Unit)}
    {p : Command × List Text} (h : readDefaults left events = .ok p) : p.1.Filled := by
  induction events generalizing left with
  | nil => cases h
  | cons event rest ih =>
    cases event with
    | given s v => cases h
    | fault f => cases h
    | leftover t => exact ih h
    | operand t => exact ih h
    | command name args =>
      obtain ⟨p', hp, rfl⟩ := Except.map_eq_ok h
      have hclear : ReadsFilled (bare .clear .clear) := readsFilled_bare trivial
      have hshow : ReadsFilled (bare .show .show) := readsFilled_bare trivial
      have hfilled : p'.1.Filled := by
        refine filled_of_choose ?_ hp
        simp [readsFilled_set, hclear, hshow]
      exact hfilled

theorem readsFilled_defaults : ReadsFilled defaults := fun _ _ h => filled_of_readDefaults h

theorem filled_of_readTop {config : Option Path} {verbose : Bool} {left : List Text}
    {events : List (Event TopSwitch)} {p : Request × List Text}
    (h : readTop config verbose left events = .ok p) : p.1.command.Filled := by
  induction events generalizing config verbose left with
  | nil => cases h
  | cons event rest ih =>
    cases event with
    | given s v =>
      rw [readTop] at h
      split at h
      · cases h
      · exact ih h
      · exact ih h
    | fault f => cases h
    | leftover t => exact ih h
    | operand t => exact ih h
    -- Only a command ends the reading.
    | command name args =>
      obtain ⟨p', hp, rfl⟩ := Except.map_eq_ok h
      have hfilled : p'.1.Filled := by
        refine filled_of_choose ?_ hp
        simp [readsFilled_build, readsFilled_defaults]
      exact hfilled

/-- **What is read from the arguments** is a filled command. -/
theorem filled_of_parse {args : List Text} {r : Request} (h : parse args = .ok r) :
    r.command.Filled := by
  unfold parse at h
  split at h
  · cases h
  next hread =>
    cases h
    exact filled_of_readTop hread
  · cases h

end CommandLine

/-! ## Failures of commands -/

/-- The failures that leave a run of a command. -/
inductive Leaving (fs : Files) (path : Path) (command : Command) : RunError → Prop
  | system (e : FileError) : Leaving fs path command (.settings (.unusable e))
  | encoding {f : Utf8.Fault} (h : Settings.members fs path = .error (.undecodable f)) :
      Leaving fs path command (.settings (.undecodable f))
  | number {n : Nat} (h : Settings.members fs path = .error (.longInteger n)) :
      Leaving fs path command (.settings (.longInteger n))
  /-- A switch for a qualifier stands without a value. -/
  | valueless {b : BuildRequest} (hb : command = .build b) (hn : none ∈ b.qualifiers) :
      Leaving fs path command .valueless

/-- How the result of a command ends its run: with code 0 or 1, with a report, or with a failure
that leaves it. -/
inductive Ends (fs : Files) (path : Path) (command : Command) : Except RunError Done → Prop
  | done {d : Done} (h : d.code = 0 ∨ d.code = 1) : Ends fs path command (.ok d)
  | reported {e : RunError} (h : e.isReported = true) : Ends fs path command (.error e)
  | left {e : RunError} (h : Leaving fs path command e) : Ends fs path command (.error e)

section

variable {fs : Files} {path : Path} {command : Command} {e : RunError}

theorem ends_of_faulty {e : SettingsError} (h : Settings.Faulty fs path e) :
    Ends fs path command (.error (.settings e)) := by
  cases h with
  | document h => exact .reported h
  | system o => exact .left (.system o)
  | encoding h => exact .left (.encoding h)
  | number h => exact .left (.number h)

theorem Leaving.not_isReported (h : Leaving fs path command e) : ¬ e.isReported = true := by
  cases h <;> exact Bool.false_ne_true

/-- Qualifiers are rejected with a report, unless one of them stands for a switch without a
value. -/
theorem readFragments_error_cases {timezoned : Bool} {qualifiers : List (Option Qualifier)}
    (h : readFragments timezoned qualifiers = .error e) :
    (∃ e', e = .qualifier e') ∨ e = .valueless ∧ none ∈ qualifiers := by
  induction qualifiers with
  | nil => cases h
  | cons q rest ih =>
    cases q with
    | none =>
      cases h
      exact .inr ⟨rfl, List.mem_cons_self⟩
    | some q =>
      rw [readFragments] at h
      split at h
      · cases h
        exact .inl ⟨_, rfl⟩
      -- The first qualifier is accepted, so the error is of one behind it.
      · split at h
        next hrest =>
          cases h
          rcases ih hrest with hq | ⟨hv, hm⟩
          · exact .inl hq
          · exact .inr ⟨hv, List.mem_cons_of_mem _ hm⟩
        next => cases h

theorem exists_qualifier_of_readFragments {timezoned : Bool} {qualifiers : List (Option Qualifier)}
    {fragments : List Fragment} (h : readFragments timezoned qualifiers = .ok fragments) :
    ∀ f ∈ fragments, ∃ q : Qualifier, q.fragment timezoned = .ok f := by
  induction qualifiers generalizing fragments with
  | nil =>
    cases h
    exact fun f hf => absurd hf List.not_mem_nil
  | cons q rest ih =>
    cases q with
    | none => cases h
    | some q =>
      rw [readFragments] at h
      split at h
      · cases h
      next hq =>
        split at h
        next => cases h
        next hrest =>
          cases h
          exact List.forall_mem_cons.2 ⟨⟨q, hq⟩, ih hrest⟩

theorem exists_printQuery {fragments : List Fragment} (verbose : Bool)
    (hb : ∀ f ∈ fragments, (Item.own f).breakdown? = none) :
    ∃ d, printQuery verbose fragments = .ok d ∧ (d.code = 0 ∨ d.code = 1) := by
  obtain ⟨omitted, ha, -⟩ := assemble_own hb
  rw [printQuery, ha]
  refine ⟨_, rfl, ?_⟩
  by_cases ho : omitted = []
  · exact .inl (if_pos ho)
  · exact .inr (if_neg ho)

theorem none_mem_qualifiersOf {s : Settings} {b : BuildRequest} (h : none ∈ qualifiersOf s b) :
    none ∈ b.qualifiers := by
  rcases List.mem_append.1 h with h | h
  · split at h
    · exact absurd h List.not_mem_nil
    · obtain ⟨d, -, hd⟩ := List.mem_map.1 h
      cases hd
  · exact h

/-- **A build** reads its settings and its qualifiers, and then nothing can fail any more. -/
theorem runBuild_ends (fs : Files) (path : Path) (verbose : Bool) (b : BuildRequest) :
    Ends fs path (.build b) (runBuild fs path verbose b) := by
  unfold runBuild
  cases hs : Settings.load fs path with
  | error e => exact ends_of_faulty (Settings.faulty_of_load hs)
  | ok s =>
    by_cases hnil : qualifiersOf s b = []
    · simp only [if_pos hnil]
      exact .reported rfl
    · simp only [if_neg hnil]
      cases hq : readFragments (b.timezoned || s.timezoned) (qualifiersOf s b) with
      | error e =>
        rcases readFragments_error_cases hq with ⟨e', rfl⟩ | ⟨rfl, hn⟩
        · exact .reported rfl
        · exact .left (.valueless rfl (none_mem_qualifiersOf hn))
      | ok fragments =>
        have hb : ∀ f ∈ fragments, (Item.own f).breakdown? = none := by
          intro f hf
          obtain ⟨q, hq⟩ := exists_qualifier_of_readFragments hq f hf
          exact Qualifier.breakdown?_fragment hq
        obtain ⟨d, hd, hcode⟩ := exists_printQuery verbose hb
        simp only [hd]
        exact .done hcode

theorem reported_ends {change : Change SettingsError} (report : Text)
    (h : ∀ e, change.failure = some e → Settings.Faulty fs path e) :
    Ends fs path command (reported change report).2 := by
  rw [reported]
  cases hf : change.failure with
  | none => exact .done (.inl rfl)
  | some e => exact ends_of_faulty (h e hf)

theorem readDefaults_ne_nil {pairs : List Qualifier} (hne : pairs ≠ []) {es : List (Text × Text)}
    (h : readDefaults pairs = .ok es) : es ≠ [] := by
  cases pairs with
  | nil => exact absurd rfl hne
  | cons q rest =>
    rw [readDefaults] at h
    split at h
    · cases h
    · split at h
      · cases h
      · cases h
        exact List.cons_ne_nil _ _

/-- **Every command** ends its run. -/
theorem runCommand_ends (standard : Path) (fs : Files) {r : Request} (hr : r.command.Filled) :
    Ends fs (r.config.getD standard) r.command (runCommand standard fs r).2 := by
  obtain ⟨config, verbose, command⟩ := r
  cases command with
  | build b => exact runBuild_ends fs _ verbose b
  | set pairs =>
    simp only [runCommand, runSet]
    cases hes : readDefaults pairs with
    | error e => exact .reported rfl
    | ok es =>
      have hne : Entries.ofList es ≠ [] := Entries.merge_ne_nil (readDefaults_ne_nil hr hes)
      exact reported_ends _ fun e he => Settings.faulty_of_store hne he
  | clear => exact reported_ends _ fun e he => Settings.faulty_of_clear he
  | «show» =>
    simp only [runCommand, runShow]
    cases hs : Settings.load fs (config.getD standard) with
    | error e => exact ends_of_faulty (Settings.faulty_of_load hs)
    | ok s => exact .done (.inl rfl)

end

/-! ## Runs -/

variable {standard : Path}

/-- An error is reported, nothing is printed, and the files are as they were. -/
def Outcome.Reports (o : Outcome) (fs : Files) : Prop :=
  ∃ message, o = ⟨.exit 1, [], errorLine message, fs⟩

theorem reports_run {fs : Files} {args : List Text} {r : Request} {e : RunError}
    (hparse : CommandLine.parse args = .ok r) (hrun : runCommand standard fs r = (fs, .error e))
    (he : e.isReported = true) : (run standard fs args).Reports fs := by
  refine ⟨e.message, ?_⟩
  rw [run, hparse]
  simp only
  rw [hrun]
  simp only [if_pos he]

theorem ending_run {fs : Files} {args : List Text} {r : Request}
    (hparse : CommandLine.parse args = .ok r) :
    (run standard fs args).ending = .exit 0 ∨ (run standard fs args).ending = .exit 1 ∨
      ∃ e, (run standard fs args).ending = .failure e ∧
        Leaving fs (r.config.getD standard) r.command e := by
  have hends := runCommand_ends standard fs (CommandLine.filled_of_parse hparse)
  rw [run, hparse]
  simp only
  -- What is left is about the result of the command alone.
  generalize runCommand standard fs r = ran at hends ⊢
  obtain ⟨fs', result⟩ := ran
  cases hends with
  | done hcode =>
    rcases hcode with hcode | hcode
    · exact .inl (congrArg Ending.exit hcode)
    · exact .inr (.inl (congrArg Ending.exit hcode))
  | reported hreported =>
    refine .inr (.inl ?_)
    simp only [if_pos hreported]
  | left hleaving =>
    refine .inr (.inr ⟨_, ?_, hleaving⟩)
    simp only [if_neg hleaving.not_isReported]

/-! ## Settings that cannot be used -/

/-- A command that meets a fault of the settings fails with it, or with an unknown key that it met
before. -/
def Meets (standard : Path) (fs : Files) (r : Request) (e : SettingsError) : Prop :=
  ∃ e', runCommand standard fs r = (fs, .error e') ∧ (e' = .settings e ∨ ∃ q, e' = .qualifier q)

theorem Meets.reports {fs : Files} {args : List Text} {r : Request} {e : SettingsError}
    (h : Meets standard fs r e) (hparse : CommandLine.parse args = .ok r)
    (he : e.isConfigFault = true) :
    (run standard fs args).Reports fs := by
  obtain ⟨e', hrun, rfl | ⟨q, rfl⟩⟩ := h
  · exact reports_run hparse hrun he
  · exact reports_run hparse hrun rfl

theorem meets_of_store {fs : Files} {config : Option Path} {verbose : Bool}
    {pairs : List Qualifier} {e : SettingsError} (hne : pairs ≠ [])
    (h : ∀ d, d ≠ [] → Settings.store fs (config.getD standard) d = ⟨fs, some e⟩) :
    Meets standard fs ⟨config, verbose, .set pairs⟩ e := by
  simp only [Meets, runCommand, runSet]
  cases hes : readDefaults pairs with
  | error q => exact ⟨_, rfl, .inr ⟨q, rfl⟩⟩
  | ok es =>
    have hne' : Entries.ofList es ≠ [] := Entries.merge_ne_nil (readDefaults_ne_nil hne hes)
    simp only [h _ hne', reported]
    exact ⟨_, rfl, .inl rfl⟩

theorem meets_of_load {fs : Files} {r : Request} {e : SettingsError}
    (hc : r.command = .show ∨ ∃ b, r.command = .build b)
    (h : Settings.load fs (r.config.getD standard) = .error e) : Meets standard fs r e := by
  refine ⟨.settings e, ?_, .inl rfl⟩
  obtain ⟨config, verbose, command⟩ := r
  rcases hc with rfl | ⟨b, rfl⟩
  · simp [runCommand, runShow, h]
  · simp [runCommand, runBuild, h]

/-- A file that cannot be read as settings fails every command. -/
theorem meets_of_members {fs : Files} {r : Request} (hr : r.command.Filled) {e : SettingsError}
    (h : Settings.members fs (r.config.getD standard) = .error e) : Meets standard fs r e := by
  have hload : Settings.load fs (r.config.getD standard) = .error e := by
    rw [Settings.load, h]
  obtain ⟨config, verbose, command⟩ := r
  cases command with
  | build b => exact meets_of_load (.inr ⟨b, rfl⟩) hload
  | set pairs =>
    refine meets_of_store hr ?_
    intro d hd
    rw [Settings.store, if_neg hd, h]
  -- Clearing is not stopped by its defaults, but it reads the members first.
  | clear =>
    have hclear : Settings.clear fs (config.getD standard) = ⟨fs, some e⟩ := by
      rw [Settings.clear, h]
    refine ⟨.settings e, ?_, .inl rfl⟩
    simp only [runCommand, runClear, hclear, reported]
  | «show» => exact meets_of_load (.inl rfl) hload

/-- Defaults that are no object fail every command but the one that removes them. -/
theorem meets_of_storedDefaults {fs : Files} {r : Request} (hr : r.command.Filled)
    (hc : r.command ≠ .clear) {ms : Entries Text Json} {e : SettingsError}
    (hms : Settings.members fs (r.config.getD standard) = .ok ms)
    (h : Settings.storedDefaults (r.config.getD standard) ms = .error e) :
    Meets standard fs r e := by
  have hload : Settings.load fs (r.config.getD standard) = .error e := by
    rw [Settings.load, hms]
    simp only [h]
  obtain ⟨config, verbose, command⟩ := r
  cases command with
  | build b => exact meets_of_load (.inr ⟨b, rfl⟩) hload
  | set pairs =>
    refine meets_of_store hr ?_
    intro d hd
    rw [Settings.store, if_neg hd, hms]
    simp only [Settings.withDefaults, h]
  | clear => exact absurd rfl hc
  | «show» => exact meets_of_load (.inl rfl) hload

/-- **How a run ends.** Help ends it with code 0 and a refusal with code 2. Otherwise its code is 0
or 1, or one of the `Leaving` failures leaves it. A settings file that holds no JSON or no object,
defaults that are no object and not empty, and a flag that is no truth value are reported by every
command that needs them. -/
theorem run_ends (standard : Path) (fs : Files) (args : List Text) :
    (∀ page, CommandLine.parse args = .error (.help page) →
      (run standard fs args).ending = .exit 0) ∧
    (∀ page fault, CommandLine.parse args = .error (.refused page fault) →
      (run standard fs args).ending = .exit 2) ∧
    ∀ r, CommandLine.parse args = .ok r →
      let path := r.config.getD standard
      ((run standard fs args).ending = .exit 0 ∨ (run standard fs args).ending = .exit 1 ∨
        ∃ e, (run standard fs args).ending = .failure e ∧ Leaving fs path r.command e) ∧
      (∀ e, Settings.members fs path = .error e → e.isConfigFault = true →
        (run standard fs args).Reports fs) ∧
      (∀ ms e, Settings.members fs path = .ok ms → Settings.storedDefaults path ms = .error e →
        r.command ≠ .clear → (run standard fs args).Reports fs) ∧
      (∀ ms e, Settings.members fs path = .ok ms → Settings.storedTimezoned path ms = .error e →
        (r.command = .show ∨ ∃ b, r.command = .build b) → (run standard fs args).Reports fs) := by
  refine ⟨?_, ?_, ?_⟩
  · intro page hparse
    rw [run, hparse]
  · intro page fault hparse
    rw [run, hparse]
  · intro r hparse path
    have hr : r.command.Filled := CommandLine.filled_of_parse hparse
    refine ⟨ending_run hparse, ?_, ?_, ?_⟩
    · intro e h he
      exact (meets_of_members hr h).reports hparse he
    · intro ms e hms h hc
      exact (meets_of_storedDefaults hr hc hms h).reports hparse
        (Settings.isConfigFault_of_storedDefaults h)
    · intro ms e hms h hc
      obtain ⟨e', hload, he'⟩ := Settings.load_of_storedTimezoned hms h
      exact (meets_of_load hc hload).reports hparse he'

/-- An array where an object is expected. -/
theorem run_ends_not_object :
    let standard := Path.ofText "default.json".text
    let fs : Files := ⟨[], [(standard.place, [0x5b, 0x5d])]⟩
    let args := ["build".text, "-t".text, "x".text]
    let r : Request := ⟨none, false, .build ⟨[some ⟨"text".text, "x".text, false⟩], false, false⟩⟩
    CommandLine.parse args = .ok r ∧
      Settings.members fs standard = .error (.notObject standard) ∧
      (run standard fs args).Reports fs := by
  intro standard fs args r
  have hparse : CommandLine.parse args = .ok r := rfl
  have hms : Settings.members fs standard = .error (.notObject standard) := rfl
  exact ⟨hparse, hms, ((run_ends standard fs args).2.2 r hparse).2.1 _ hms rfl⟩

/-- Bytes that are no UTF-8 end a run with a failure that leaves it, and without a report. -/
theorem run_ends_undecodable :
    let standard := Path.ofText "default.json".text
    let fs : Files := ⟨[], [(standard.place, [0xff])]⟩
    let args := ["defaults".text, "show".text]
    CommandLine.parse args = .ok ⟨none, false, .show⟩ ∧
      ∃ f, Settings.members fs standard = .error (.undecodable f) ∧
        run standard fs args = ⟨.failure (.settings (.undecodable f)), [], [], fs⟩ :=
  ⟨rfl, _, rfl, rfl⟩

end SearchQuery
