import SearchQuery.Proofs.Assembly
import SearchQuery.Proofs.CommandLine
import SearchQuery.Proofs.Messages
import SearchQuery.Proofs.Settings.Runs
import SearchQuery.Run

/-!
# What a build prints

**Theorem (`run_buildLine`).** A build whose settings load takes the stored defaults, unless a flag
says otherwise, and then the qualifiers of its groups. Without any, or at the first that gives no
fragment, it ends with code 1 and one line on the error output. Otherwise it prints the tokens of
the fragments that render, in order, and has one line on the error output for each of the others;
its code is 0 when there are none. Where the flags stand does not matter.

Every comparison that a qualifier can spell is an operator (`Key.term_cases`), so an assembly of
qualifiers never breaks down, and what it gives is known from `assembleFrom_exact`.
-/

namespace SearchQuery

theorem Except.bind_eq_ok {ε α β : Type} {x : Except ε α} {f : α → Except ε β} {b : β}
    (h : (x >>= f) = .ok b) : ∃ a, x = .ok a ∧ f a = .ok b := by
  cases x with
  | error e => cases h
  | ok a => exact ⟨a, rfl, h⟩

theorem Except.map_eq_ok {ε α β : Type} {x : Except ε α} {f : α → β} {b : β}
    (h : x.map f = .ok b) : ∃ a, x = .ok a ∧ f a = b := by
  cases x with
  | error e => cases h
  | ok a => exact ⟨a, rfl, Except.ok.inj h⟩

/-! ## Fragments of qualifiers -/

theorem splitOperator_mem (t : Text) : (splitOperator t).1 ∈ Comparison.operators := by
  have hall : ∀ c ∈ [Comparison.leq, .geq, .less, .greater, .equal], c ∈ Comparison.operators := by
    decide
  refine hall _ ?_
  unfold splitOperator
  split <;> simp

/-- A date gives a single timestamp behind an operator, or a range. -/
theorem dateTerm_cases {key : Key} {format : DateFormat} {value : Text} {t : Term}
    (h : dateTerm key format value = .ok t) :
    (∃ v c, c ∈ Comparison.operators ∧ t = .single key.name format v c) ∨
      ∃ s f, t = .range key.name format s f := by
  unfold dateTerm at h
  split at h
  · obtain ⟨s, -, h⟩ := Except.bind_eq_ok h
    obtain ⟨f, -, h⟩ := Except.bind_eq_ok h
    exact .inr ⟨s, f, (Except.ok.inj h).symm⟩
  · obtain ⟨v, -, h⟩ := Except.bind_eq_ok h
    exact .inl ⟨v, _, splitOperator_mem (trim value), (Except.ok.inj h).symm⟩

theorem Key.term_cases {key : Key} {timezoned : Bool} {value : Text} {t : Term}
    (h : key.term timezoned value = .ok t) :
    (∃ v, t = .text v) ∨ (∃ v, t = .tag key.name v) ∨
      (∃ v c, c ∈ Comparison.operators ∧ t = .single key.name (.ofFlag timezoned) v c) ∨
      ∃ s f, t = .range key.name (.ofFlag timezoned) s f := by
  cases key with
  | text => exact .inl ⟨value, (Except.ok.inj h).symm⟩
  | repo =>
    obtain ⟨v, -, h⟩ := Except.bind_eq_ok h
    exact .inr (.inl ⟨v, (Except.ok.inj h).symm⟩)
  | org =>
    obtain ⟨v, -, h⟩ := Except.bind_eq_ok h
    exact .inr (.inl ⟨v, (Except.ok.inj h).symm⟩)
  | label =>
    obtain ⟨v, -, h⟩ := Except.bind_eq_ok h
    exact .inr (.inl ⟨_, (Except.ok.inj h).symm⟩)
  | author =>
    obtain ⟨v, -, h⟩ := Except.bind_eq_ok h
    exact .inr (.inl ⟨_, (Except.ok.inj h).symm⟩)
  | created => exact .inr (.inr (dateTerm_cases h))
  | closed => exact .inr (.inr (dateTerm_cases h))

/-- A fragment of a qualifier renders, or its range is inverted. -/
theorem Qualifier.render_fragment {q : Qualifier} {timezoned : Bool} {f : Fragment}
    (h : q.fragment timezoned = .ok f) :
    (∃ t, f.render = .ok t) ∨ ∃ (key : Key) (s e : Timestamp),
      f.render = .error (.query (.invertedPeriod key.name s e)) := by
  obtain ⟨key, -, h⟩ := Except.bind_eq_ok h
  obtain ⟨term, hterm, h⟩ := Except.bind_eq_ok h
  obtain rfl := Except.ok.inj h
  rcases Key.term_cases hterm with ⟨v, rfl⟩ | ⟨v, rfl⟩ | ⟨v, c, hc, rfl⟩ | ⟨s, e, rfl⟩
  · exact .inl ⟨_, rfl⟩
  · exact .inl ⟨_, rfl⟩
  -- A value is read with an operator, and each operator has a symbol.
  · obtain ⟨symbol, hs⟩ : ∃ symbol, c.symbol? = some symbol :=
      Option.ne_none_iff_exists'.1 fun hn => Comparison.symbol?_eq_none_iff.1 hn hc
    refine .inl ⟨dash q.excluded ++ (key.name ++ .char ':' :: symbol ++
      (DateFormat.ofFlag timezoned).write v), ?_⟩
    simp [Fragment.render, Term.render, Comparison.render, hs, Except.map]
  · by_cases hi : s.after e = true
    · exact .inr ⟨key, s, e, by simp [Fragment.render, Term.render, hi, Except.map]⟩
    · have hr : (Term.range key.name (.ofFlag timezoned) s e).render = .ok _ := if_neg hi
      exact .inl ⟨_, by rw [Fragment.render, hr]; rfl⟩

theorem Qualifier.breakdown?_fragment {q : Qualifier} {timezoned : Bool} {f : Fragment}
    (h : q.fragment timezoned = .ok f) : (Item.own f).breakdown? = none := by
  rcases Qualifier.render_fragment h with ⟨t, hr⟩ | ⟨key, s, e, hr⟩ <;>
    simp [Item.breakdown?, Item.render, hr]

theorem Qualifier.oneLine_omission {q : Qualifier} {timezoned : Bool} {f : Fragment}
    (h : q.fragment timezoned = .ok f) {e : QueryError} (he : (Item.own f).omission? = some e) :
    OneLine e.message := by
  have he' : f.render = .error (.query e) := Item.omission?_eq_some_iff.1 he
  rcases Qualifier.render_fragment h with ⟨t, hr⟩ | ⟨key, s, f, hr⟩
  · simp [hr] at he'
  · rw [hr] at he'
    cases he'
    exact QueryError.oneLine_invertedPeriod key.oneLine_name s f

/-! ## Reading and printing fragments -/

theorem readFragments_of_rejected {timezoned : Bool} {pre post : List Qualifier} {q : Qualifier}
    {e : QualifierError} (hp : ∀ p ∈ pre, ∃ f, p.fragment timezoned = .ok f)
    (he : q.fragment timezoned = .error e) :
    readFragments timezoned ((pre ++ q :: post).map some) = .error (.qualifier e) := by
  induction pre with
  | nil => simp [readFragments, he]
  | cons p rest ih =>
    obtain ⟨⟨f, hf⟩, hr⟩ := List.forall_mem_cons.1 hp
    rw [List.cons_append, List.map_cons, readFragments, hf]
    simp only [ih hr]

theorem readFragments_of_accepted {timezoned : Bool} {qs : List Qualifier}
    {fragments : List Fragment} (h : qs.map (·.fragment timezoned) = fragments.map .ok) :
    readFragments timezoned (qs.map some) = .ok fragments := by
  induction qs generalizing fragments with
  | nil =>
    obtain rfl := List.map_eq_nil_iff.1 h.symm
    rfl
  | cons q rest ih =>
    obtain ⟨f, fs, rfl, hf, hr⟩ := List.map_eq_cons_iff.1 h.symm
    have hf' : q.fragment timezoned = .ok f := hf.symm
    rw [List.map_cons, readFragments, hf']
    simp only [ih hr.symm]

theorem exists_qualifier_of_mem {timezoned : Bool} {qs : List Qualifier} {fragments : List Fragment}
    (h : qs.map (·.fragment timezoned) = fragments.map .ok) {f : Fragment} (hf : f ∈ fragments) :
    ∃ q : Qualifier, q.fragment timezoned = .ok f := by
  have hm : Except.ok f ∈ fragments.map (Except.ok (ε := QualifierError)) := List.mem_map_of_mem hf
  rw [← h] at hm
  obtain ⟨q, -, hq⟩ := List.mem_map.1 hm
  exact ⟨q, hq⟩

/-- The errors of the fragments that do not render. -/
def omissions (fragments : List Fragment) : List QueryError :=
  fragments.filterMap fun f => (Item.own f).omission?

theorem map_snd_failing (index : Nat) (items : List Item) :
    (failing index items).map (·.2) = items.filterMap Item.omission? := by
  induction items generalizing index with
  | nil => rfl
  | cons i rest ih =>
    rw [failing_cons, List.map_append, ih, List.filterMap_cons]
    cases i.omission? <;> rfl

/-- Fragments that do not break down are assembled. -/
theorem assemble_own {fragments : List Fragment}
    (hb : ∀ f ∈ fragments, (Item.own f).breakdown? = none) :
    ∃ omitted, assemble (fragments.map .own) =
        .ok ((fragments.map Item.own).flatMap Item.token, omitted) ∧
      omitted.map (fun o => (o.index, o.error)) = failing 0 (fragments.map .own) := by
  refine assembleFrom_exact 0 ?_ ?_
  · intro i hi
    obtain ⟨f, -, rfl⟩ := List.mem_map.1 hi
    exact Option.some_ne_none _
  · intro i hi
    obtain ⟨f, hf, rfl⟩ := List.mem_map.1 hi
    exact hb f hf

theorem printQuery_of_unbroken {fragments : List Fragment}
    (hb : ∀ f ∈ fragments, (Item.own f).breakdown? = none) :
    printQuery false fragments = .ok ⟨if omissions fragments = [] then 0 else 1,
      line (fragments.flatMap fun f => (Item.own f).token),
      (omissions fragments).flatMap fun e => errorLine e.message⟩ := by
  obtain ⟨omitted, ha, hmap⟩ := assemble_own hb
  -- Without a log, only the errors of what is left out are printed.
  have herrors : omitted.map (·.error) = omissions fragments := by
    have h := congrArg (List.map (·.2)) hmap
    rw [List.map_map, map_snd_failing, List.filterMap_map] at h
    exact h
  have hnil : omitted = [] ↔ omissions fragments = [] := by
    rw [← herrors, List.map_eq_nil_iff]
  have hlines : (omitted.flatMap fun o => errorLine o.error.message) =
      (omissions fragments).flatMap fun e => errorLine e.message := by
    rw [← herrors, List.flatMap_map]
  rw [printQuery, ha]
  simp only [hnil, hlines, List.flatMap_map]
  rfl

/-! ## Whole runs -/

open CommandLine (Group buildLine buildRequest parse_buildLine)

/-- The qualifiers of a build: the stored ones, unless a group says otherwise, then those given. -/
def buildQualifiers (s : Settings) (groups : List Group) : List Qualifier :=
  (if .noDefaults ∈ groups then [] else s.defaults.map fun d => ⟨d.1, d.2, false⟩) ++
    groups.filterMap Group.qualifier?

/-- Whether a build writes times: as a group or the settings say. -/
def buildTimezoned (s : Settings) (groups : List Group) : Bool :=
  .timezoned ∈ groups || s.timezoned

theorem qualifiersOf_buildRequest (s : Settings) (groups : List Group) :
    qualifiersOf s (buildRequest groups) = (buildQualifiers s groups).map some := by
  simp only [qualifiersOf, buildRequest, buildQualifiers, decide_eq_true_eq, List.map_append]
  split <;> simp

theorem run_of_runBuild (standard : Path) (fs : Files) {config : Text}
    (hc : config.head? ≠ some (.char '-')) {groups : List Group} (hg : ∀ g ∈ groups, g.WellFormed) :
    run standard fs (buildLine config groups) =
      match runBuild fs (Path.ofText config) false (buildRequest groups) with
      | .ok d => ⟨.exit d.code, d.output, d.errors, fs⟩
      | .error e =>
        if e.isReported then ⟨.exit 1, [], errorLine e.message, fs⟩
        else ⟨.failure e, [], [], fs⟩ := by
  rw [run, parse_buildLine hc hg]
  simp only [runCommand, Option.getD_some]
  cases runBuild fs (Path.ofText config) false (buildRequest groups) <;> rfl

/-- **What a build prints**, in each of the three cases. -/
theorem run_buildLine (standard : Path) {fs : Files} {config : Text}
    (hc : config.head? ≠ some (.char '-')) {groups : List Group} (hg : ∀ g ∈ groups, g.WellFormed)
    {s : Settings} (hs : Settings.load fs (Path.ofText config) = .ok s) :
    (buildQualifiers s groups = [] →
      run standard fs (buildLine config groups) =
        ⟨.exit 1, [], errorLine "No qualifiers given".text, fs⟩) ∧
    (∀ pre q post e, buildQualifiers s groups = pre ++ q :: post →
      (∀ p ∈ pre, ∃ f, p.fragment (buildTimezoned s groups) = .ok f) →
      q.fragment (buildTimezoned s groups) = .error e →
      run standard fs (buildLine config groups) = ⟨.exit 1, [], errorLine e.message, fs⟩ ∧
        OneLine e.message) ∧
    (∀ fragments, buildQualifiers s groups ≠ [] →
      (buildQualifiers s groups).map (·.fragment (buildTimezoned s groups)) =
        fragments.map .ok →
      run standard fs (buildLine config groups) =
        ⟨.exit (if ∀ f ∈ fragments, (Item.own f).omission? = none then 0 else 1),
          line (fragments.flatMap fun f => (Item.own f).token),
          (omissions fragments).flatMap fun e => errorLine e.message, fs⟩ ∧
        (∀ f ∈ fragments, (∃ t, f.render = .ok t) ∨ ∃ e, f.render = .error (.query e)) ∧
        ∀ e ∈ omissions fragments, OneLine e.message) ∧
    ∀ groups', (∀ g ∈ groups', g.WellFormed) →
      groups'.filterMap Group.qualifier? = groups.filterMap Group.qualifier? →
      (.timezoned ∈ groups' ↔ .timezoned ∈ groups) →
      (.noDefaults ∈ groups' ↔ .noDefaults ∈ groups) →
      run standard fs (buildLine config groups') = run standard fs (buildLine config groups) := by
  have hrun := run_of_runBuild standard fs hc hg
  have hz : ((buildRequest groups).timezoned || s.timezoned) = buildTimezoned s groups := rfl
  rw [runBuild, hs] at hrun
  simp only [qualifiersOf_buildRequest, List.map_eq_nil_iff, hz] at hrun
  refine ⟨?_, ?_, ?_, ?_⟩
  · intro hnil
    rw [if_pos hnil] at hrun
    exact hrun
  · intro pre q post e hsplit hp he
    rw [hsplit, if_neg (by simp), readFragments_of_rejected hp he] at hrun
    exact ⟨hrun, e.oneLine_message⟩
  · intro fragments hne hfs
    have hb : ∀ f ∈ fragments, (Item.own f).breakdown? = none := by
      intro f hf
      obtain ⟨q, hq⟩ := exists_qualifier_of_mem hfs hf
      exact Qualifier.breakdown?_fragment hq
    have hcode : omissions fragments = [] ↔ ∀ f ∈ fragments, (Item.own f).omission? = none :=
      List.filterMap_eq_nil_iff
    rw [if_neg hne, readFragments_of_accepted hfs] at hrun
    simp only [printQuery_of_unbroken hb, hcode] at hrun
    refine ⟨hrun, ?_, ?_⟩
    · intro f hf
      obtain ⟨q, hq⟩ := exists_qualifier_of_mem hfs hf
      rcases Qualifier.render_fragment hq with hr | ⟨key, s, e, hr⟩
      · exact .inl hr
      · exact .inr ⟨_, hr⟩
    · intro e he
      obtain ⟨f, hf, he⟩ := List.mem_filterMap.1 he
      obtain ⟨q, hq⟩ := exists_qualifier_of_mem hfs hf
      exact Qualifier.oneLine_omission hq he
  · intro groups' hg' hqs ht hn
    -- A request keeps no more of its groups than the two lists have in common.
    have hrequest : buildRequest groups' = buildRequest groups := by
      simp only [buildRequest, hqs, ht, hn]
    rw [run_of_runBuild standard fs hc hg', run_of_runBuild standard fs hc hg, hrequest]

/-- A stored default, a range that is inverted and a text behind a flag. -/
theorem run_buildLine_three :
    let standard := Path.ofText "default.json".text
    let path := Path.ofText "c".text
    let defaults : Entries Text Text := [("org".text, "acme".text)]
    let fs : Files := ⟨[], [(path.place, Utf8.encode (Json.document (Settings.record defaults)))]⟩
    let groups : List Group :=
      [.pair false "created".text "2024-06-02..2024-06-01".text, .timezoned, .text "x".text]
    Settings.load fs path = .ok ⟨defaults, false⟩ ∧ (∀ g ∈ groups, g.WellFormed) ∧
      run standard fs (buildLine "c".text groups) = ⟨.exit 1, "org:acme \"x\" \n".text,
        ("Error: invalid time period for 'created': 2024-06-02 is after 2024-06-01\n").text, fs⟩ := by
  intro standard path defaults fs groups
  have hs : Settings.load fs path = .ok ⟨defaults, false⟩ := by
    have hk : defaults.keys.Nodup := List.pairwise_singleton _ _
    have ht : ∀ e ∈ defaults, Settings.TidyEntry e := by decide
    exact (Settings.Holds.present (List.cons_ne_nil _ _) hk ht rfl).load
  have hg : ∀ g ∈ groups, g.WellFormed := by decide
  have h := (run_buildLine standard (by decide) hg hs).2.2.1
    [⟨.tag "org".text "acme".text, false⟩,
      ⟨.range "created".text .timezoned (.date ((Date.of? 2024 6 2).get rfl))
        (.date ((Date.of? 2024 6 1).get rfl)), false⟩,
      ⟨.text "x".text, false⟩] (List.cons_ne_nil _ _) rfl
  exact ⟨hs, hg, h.1.trans rfl⟩

end SearchQuery
