import SearchQuery.Proofs.CommandLine
import SearchQuery.Proofs.Entries
import SearchQuery.Proofs.Settings.Runs
import SearchQuery.Proofs.Settings.Spellings
import SearchQuery.Run

/-!
# Stored defaults are like qualifiers that are given

**Theorem (`run_defaults_given`).** A build whose arguments do not turn the stored defaults off does
what the same build does that turns them off and gives each of them as a qualifier, in front of all
others and in their order. It prints the same, reports the same and ends the same way, whatever the
other arguments are and whatever the defaults hold.

The arguments in front make a request of their own, and what they do to the request behind them is
`BuildRequest.before`: every switch takes effect in the same way on both (`giveBuild_before`), and
so does a run of events (`readBuild_before`). What was loaded has no blanks at its ends
(`trim_of_mem_normalized`), so a default that is spelt `key=value` is read as the default.
-/

namespace SearchQuery

/-- The request of some arguments followed by that of others. -/
def BuildRequest.before (p r : BuildRequest) : BuildRequest :=
  ⟨p.qualifiers ++ r.qualifiers, p.timezoned || r.timezoned, p.noDefaults || r.noDefaults⟩

namespace CommandLine

/-! ## Arguments behind a request -/

theorem giveBuild_before (p r : BuildRequest) (s : Switch BuildSwitch) (value : Option Text) :
    giveBuild (p.before r) s value = (giveBuild r s value).map p.before := by
  have hadd : ∀ q, BuildRequest.add (p.before r) q = p.before (BuildRequest.add r q) := by
    intro q
    simp [BuildRequest.add, BuildRequest.before]
  cases hs : s.meaning with
  | help => simp only [giveBuild, hs, Except.map]
  | text => simp only [giveBuild, hs, Except.map, hadd]
  | qualifier =>
    simp only [giveBuild, hs]
    cases readSwitchValue (readPair .build s.title false) value <;> simp [Except.map, hadd]
  | exclude =>
    simp only [giveBuild, hs]
    cases readSwitchValue (readPair .build s.title true) value <;> simp [Except.map, hadd]
  | timezoned => simp [giveBuild, hs, Except.map, BuildRequest.before]
  | noDefaults => simp [giveBuild, hs, Except.map, BuildRequest.before]

/-- **Events** do the same behind another request. -/
theorem readBuild_before (p r : BuildRequest) (left : List Text)
    (events : List (Event BuildSwitch)) :
    readBuild (p.before r) left events =
      (readBuild r left events).map fun q => (p.before q.1, q.2) := by
  -- The request read so far grows with each event, so it is generalized.
  induction events generalizing r left with
  | nil => rfl
  | cons event rest ih =>
    cases event with
    | given s value =>
      rw [readBuild, readBuild, giveBuild_before]
      cases giveBuild r s value with
      | error stop => rfl
      | ok r' => exact ih r' left
    | operand t => exact ih r _
    | command t args => exact ih r _
    | leftover t => exact ih r _
    | fault f => rfl

/-- Groups in front of other arguments put their request before the one of these. -/
theorem readRequest_append {groups : List Group} (hg : ∀ g ∈ groups, g.WellFormed)
    (args : List Text) :
    readRequest (groups.flatMap Group.arguments ++ args) =
      (readRequest args).map fun q => ((buildRequest groups).before q.1, q.2) := by
  have hstart : buildRequest groups = (buildRequest groups).before ⟨[], false, false⟩ := by
    simp [BuildRequest.before]
  rw [readRequest_groups_append hg, hstart, readBuild_before, ← hstart]
  rfl

/-- The arguments of a build that leave the stored defaults on. -/
def KeepsDefaults (args : List Text) : Prop :=
  ∀ r left, readRequest args = .ok (r, left) → r.noDefaults = false

theorem keepsDefaults_of_groups {groups : List Group} (hg : ∀ g ∈ groups, g.WellFormed)
    (h : .noDefaults ∉ groups) : KeepsDefaults (groups.flatMap Group.arguments) := by
  intro r left hread
  rw [readRequest_groups hg] at hread
  obtain ⟨rfl, -⟩ := Prod.mk.inj (Except.ok.inj hread)
  exact decide_eq_false h

end CommandLine

/-! ## Defaults as groups -/

open CommandLine (Group buildRequest readRequest topLine KeepsDefaults)

/-- The arguments that turn the stored defaults off and give them as qualifiers. -/
def Settings.groups (s : Settings) : List Group :=
  .noDefaults :: s.defaults.map fun d => .pair false d.1 d.2

theorem Settings.arguments_groups (s : Settings) :
    s.groups.flatMap Group.arguments = "--no-defaults".text ::
      s.defaults.flatMap fun d => ["-Q".text, d.1 ++ .char '=' :: d.2] := by
  rw [Settings.groups, List.flatMap_cons, List.flatMap_map]
  rfl

theorem Key.wellFormed_pair (k : Key) (value : Text) :
    (Group.pair false k.name value).WellFormed := by
  have hname : .char '=' ∉ k.name ∧ trim k.name ≠ [] ∧ k.name.head? ≠ some (.char '-') := by
    cases k <;> decide
  exact hname

theorem Settings.wellFormed_groups {s : Settings} (hk : ∀ d ∈ s.defaults, ∃ k : Key, k.name = d.1) :
    ∀ g ∈ s.groups, g.WellFormed := by
  refine List.forall_mem_cons.2 ⟨trivial, ?_⟩
  intro g hg
  obtain ⟨d, hd, rfl⟩ := List.mem_map.1 hg
  obtain ⟨k, hk⟩ := hk d hd
  rw [← hk]
  exact k.wellFormed_pair d.2

theorem Settings.buildRequest_groups {s : Settings}
    (ht : ∀ d ∈ s.defaults, trim d.1 = d.1 ∧ trim d.2 = d.2) :
    buildRequest s.groups = ⟨s.defaults.map fun d => some ⟨d.1, d.2, false⟩, false, true⟩ := by
  have hqualifiers : s.groups.filterMap Group.qualifier? =
      s.defaults.map fun d => ⟨d.1, d.2, false⟩ := by
    rw [Settings.groups, List.filterMap_cons, Group.qualifier?, List.filterMap_map,
      ← List.filterMap_eq_map]
    refine List.filterMap_congr ?_
    intro d hd
    obtain ⟨hkey, hvalue⟩ := ht d hd
    simp [Group.qualifier?, hkey, hvalue]
  rw [buildRequest, hqualifiers]
  simp [Settings.groups]

theorem runBuild_before {fs : Files} {path : Path} {s : Settings}
    (hs : Settings.load fs path = .ok s) (verbose : Bool) {r : BuildRequest}
    (hr : r.noDefaults = false) :
    runBuild fs path verbose
        (BuildRequest.before ⟨s.defaults.map fun d => some ⟨d.1, d.2, false⟩, false, true⟩ r) =
      runBuild fs path verbose r := by
  simp only [runBuild, hs, qualifiersOf, BuildRequest.before, hr, Bool.true_or, Bool.false_or,
    if_true, Bool.false_eq_true, if_false, List.nil_append]

/-- **Defaults that are stored and defaults that are given** make the same run. -/
theorem run_defaults_given (standard : Path) {fs : Files} (verbose : Bool) {config : Option Text}
    (hc : ∀ c ∈ config, c.head? ≠ some (.char '-')) {s : Settings}
    (hs : Settings.load fs ((config.map Path.ofText).getD standard) = .ok s)
    (hk : ∀ d ∈ s.defaults, ∃ k : Key, k.name = d.1) {args : List Text}
    (hargs : KeepsDefaults args) :
    run standard fs (topLine verbose config ++ "build".text :: args) =
      run standard fs (topLine verbose config ++ "build".text :: "--no-defaults".text ::
        ((s.defaults.flatMap fun d => ["-Q".text, d.1 ++ .char '=' :: d.2]) ++ args)) := by
  have htrim : ∀ d ∈ s.defaults, trim d.1 = d.1 ∧ trim d.2 = d.2 := by
    obtain ⟨_, ds, -, -, -, hdefaults⟩ := Settings.load_eq_ok_iff.1 hs
    intro d hd
    rw [hdefaults] at hd
    exact (Settings.trim_of_mem_normalized hd).2
  have hg := Settings.wellFormed_groups hk
  rw [← List.cons_append, ← s.arguments_groups, run, run, CommandLine.parse_topLine_build verbose hc,
    CommandLine.parse_topLine_build verbose hc, CommandLine.readRequest_append hg,
    s.buildRequest_groups htrim, CommandLine.ofArguments_groups Group.ofArgument_name_top hg]
  -- Both command lines are refused alike, or read as one request.
  cases Token.ofArguments CommandLine.topSwitches args with
  | error f => rfl
  | ok tokens =>
    cases hread : readRequest args with
    | error stop => rfl
    | ok q =>
      obtain ⟨r, left⟩ := q
      cases left with
      | nil =>
        simp only [Except.map, runCommand, runBuild_before hs verbose (hargs r [] hread)]
      | cons t left => rfl

/-- Two defaults, of which one holds a sign of equality and the other is a range that is inverted,
in front of a negated qualifier and a flag. -/
theorem run_defaults_given_two :
    let standard := Path.ofText "default.json".text
    let defaults : Entries Text Text :=
      [("text".text, "a=b .. c".text), ("created".text, "2024-06-02..2024-06-01".text)]
    let fs : Files := ⟨[], [((Path.ofText "c".text).place,
      Utf8.encode (Json.document (Settings.record defaults)))]⟩
    let args := ["-X".text, "label=bug, ui".text, "--timezoned".text]
    Settings.load fs (Path.ofText "c".text) = .ok ⟨defaults, false⟩ ∧
      (∀ d ∈ defaults, ∃ k : Key, k.name = d.1) ∧ KeepsDefaults args ∧
      run standard fs ("--config".text :: "c".text :: "build".text :: args) =
        run standard fs ("--config".text :: "c".text :: "build".text :: "--no-defaults".text ::
          "-Q".text :: "text=a=b .. c".text ::
          "-Q".text :: "created=2024-06-02..2024-06-01".text :: args) := by
  intro standard defaults fs args
  have hs : Settings.load fs (Path.ofText "c".text) = .ok ⟨defaults, false⟩ := by
    have hkeys : defaults.keys.Nodup := by decide
    have ht : ∀ e ∈ defaults, Settings.TidyEntry e := by decide
    exact (Settings.Holds.present (List.cons_ne_nil _ _) hkeys ht rfl).load
  have hk : ∀ d ∈ defaults, ∃ k : Key, k.name = d.1 :=
    List.forall_mem_cons.2 ⟨⟨.text, rfl⟩, List.forall_mem_cons.2 ⟨⟨.created, rfl⟩, nofun⟩⟩
  let groups : List Group := [.pair true "label".text "bug, ui".text, .timezoned]
  have hg : ∀ g ∈ groups, g.WellFormed := by decide
  have hargs : KeepsDefaults args := CommandLine.keepsDefaults_of_groups hg (by decide)
  have hc : ∀ c ∈ some "c".text, c.head? ≠ some (.char '-') := by
    intro c hc
    obtain rfl := Option.some.inj hc
    decide
  exact ⟨hs, hk, hargs, run_defaults_given standard false hc hs hk hargs⟩

end SearchQuery
