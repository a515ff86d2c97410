import SearchQuery.Proofs.DateValues
import SearchQuery.Proofs.Timestamp.Spellings
import SearchQuery.Run

/-!
# Respelled dates

**Theorem (`DateLayout.respelling`).** Every spelling of a day is read as this day, and a spelling
without a day as the Monday of the week; two texts of one layout are never read as the same. So a
build gives the same whichever spellings its qualifiers have.

A spelling has neither blanks nor dots, so it is a value of its own behind any operator
(`dateTerm_spell`), and with another one behind two dots a range (`dateTerm_spell_range`).
Qualifiers with the same days have the same fragments, and a build reads nothing else of them.
-/

namespace SearchQuery

/-! ## Values -/

namespace DateLayout

theorem visible_spell (l : DateLayout) (d : Date) : Visible (l.spell d) :=
  (l.laidOut_spell d).visible l.visible_pattern

theorem dot_not_mem_spell (l : DateLayout) (d : Date) : .char '.' ∉ l.spell d := by
  obtain ⟨hspell, htold⟩ := l.spell_told d
  exact not_mem_of_readDate (readDate_eq_some_iff.2 ⟨l, htold, hspell.symm⟩)

theorem dateTerm_spell {op : Text} {c : Comparison} (hop : op ∈ Comparison.spellings)
    (hc : Comparison.parse op = .ok c) (key : Key) (format : DateFormat) (l : DateLayout)
    (d : Date) :
    dateTerm key format (op ++ l.spell d) = .ok (.single key.name format (.date (l.told d)) c) := by
  have hoperators : ∀ op ∈ Comparison.spellings, Visible op := by decide
  have hvalue : Visible (op ++ l.spell d) :=
    visible_append.2 ⟨hoperators op hop, l.visible_spell d⟩
  have hone : SpellsOne (op ++ l.spell d) op (l.spell d) c (.date (l.told d)) :=
    ⟨hop, hc, hvalue.trim_eq, l.parse_spell d⟩
  refine hone.dateTerm_eq (fun hover => ?_) key format
  exact (parse_dots_iff.2 hover).2 (dotsApart_of_not_mem (l.dot_not_mem_spell d))

theorem dateTerm_spell_range (key : Key) (format : DateFormat) (l m : DateLayout) (d e : Date) :
    dateTerm key format (l.spell d ++ "..".text ++ m.spell e) =
      .ok (.range key.name format (.date (l.told d)) (.date (m.told e))) := by
  have hfirst : ¬ "..".text <:+: l.spell d ++ [.char '.'] := by
    rw [dots_infix_iff, not_not, dotsApart_append_left (l.dot_not_mem_spell d)]
    exact List.isChain_singleton _
  exact SpellsTwo.dateTerm_eq ⟨rfl, hfirst, l.parse_spell d, m.parse_spell e⟩ key format

end DateLayout

/-! ## Qualifiers -/

/-- Two qualifiers are the same, but that dates may be spelled in another way. -/
inductive Qualifier.Respelled : Qualifier → Qualifier → Prop
  | self (q : Qualifier) : Respelled q q
  | single {key : Key} (hkey : key = .created ∨ key = .closed) {op : Text}
      (hop : op ∈ Comparison.spellings) {l m : DateLayout} {d e : Date} (h : l.told d = m.told e)
      (excluded : Bool) :
      Respelled ⟨key.name, op ++ l.spell d, excluded⟩ ⟨key.name, op ++ m.spell e, excluded⟩
  | range {key : Key} (hkey : key = .created ∨ key = .closed) {l m l' m' : DateLayout}
      {d e d' e' : Date} (hstart : l.told d = m.told e) (hfinish : l'.told d' = m'.told e')
      (excluded : Bool) :
      Respelled ⟨key.name, l.spell d ++ "..".text ++ l'.spell d', excluded⟩
        ⟨key.name, m.spell e ++ "..".text ++ m'.spell e', excluded⟩

theorem Comparison.exists_parse {op : Text} (h : op ∈ spellings) : ∃ c, parse op = .ok c := by
  simp only [spellings, List.mem_cons, List.not_mem_nil, or_false] at h
  rcases h with rfl | rfl | rfl | rfl | rfl | rfl <;> exact ⟨_, rfl⟩

theorem Qualifier.Respelled.fragment_eq {q r : Qualifier} (h : q.Respelled r) (timezoned : Bool) :
    q.fragment timezoned = r.fragment timezoned := by
  cases h with
  | self => rfl
  | single hkey hop h =>
    obtain ⟨c, hc⟩ := Comparison.exists_parse hop
    rw [fragment_of_dates hkey, fragment_of_dates hkey, DateLayout.dateTerm_spell hop hc,
      DateLayout.dateTerm_spell hop hc, h]
  | range hkey hstart hfinish =>
    rw [fragment_of_dates hkey, fragment_of_dates hkey, DateLayout.dateTerm_spell_range,
      DateLayout.dateTerm_spell_range, hstart, hfinish]

/-! ## Builds -/

theorem readFragments_of_respelled {qs rs : List (Option Qualifier)}
    (h : List.Forall₂ (Option.Rel Qualifier.Respelled) qs rs) (timezoned : Bool) :
    readFragments timezoned qs = readFragments timezoned rs := by
  induction h with
  | nil => rfl
  | cons hq _ ih =>
    cases hq with
    | none => rfl
    | some hq => rw [readFragments, readFragments, hq.fragment_eq timezoned, ih]

theorem readFragments_append_congr {qs rs : List (Option Qualifier)} {timezoned : Bool}
    (h : readFragments timezoned qs = readFragments timezoned rs) (pre : List (Option Qualifier)) :
    readFragments timezoned (pre ++ qs) = readFragments timezoned (pre ++ rs) := by
  induction pre with
  | nil => exact h
  | cons q pre ih =>
    cases q with
    | none => rfl
    | some q => rw [List.cons_append, List.cons_append, readFragments, readFragments, ih]

/-- **A build of respelled qualifiers** is the same build. -/
theorem runBuild_of_respelled {qs rs : List (Option Qualifier)}
    (h : List.Forall₂ (Option.Rel Qualifier.Respelled) qs rs) (fs : Files) (path : Path)
    (verbose timezoned noDefaults : Bool) :
    runBuild fs path verbose ⟨qs, timezoned, noDefaults⟩ =
      runBuild fs path verbose ⟨rs, timezoned, noDefaults⟩ := by
  -- A build looks at whether there are qualifiers, and then at their fragments.
  have hnil : qs = [] ↔ rs = [] := by
    rw [← List.length_eq_zero_iff, h.length_eq, List.length_eq_zero_iff]
  have hread := fun zoned pre => readFragments_append_congr (readFragments_of_respelled h zoned) pre
  simp only [runBuild, qualifiersOf, List.append_eq_nil_iff, hnil, hread]

namespace DateLayout

/-- **Every spelling of a day is the same date**: it is read as the day, or as the Monday where the
layout has no day; no layout has two texts for one date; and in a query any spelling will do. -/
theorem respelling :
    (∀ (d : Date) (dashed : Bool),
      Timestamp.parse ((month dashed).spell d) = .ok (.date d) ∧
      Timestamp.parse ((weekday dashed).spell d) = .ok (.date d) ∧
      Timestamp.parse ((week dashed).spell d) = .ok (.date d.monday)) ∧
    (∀ d : Date, d.monday.weekday = 1 ∧
      d.monday.ordinal ≤ d.ordinal ∧ d.ordinal < d.monday.ordinal + 7) ∧
    (∀ (l : DateLayout) t u x, LaidOut l.pattern t → LaidOut l.pattern u →
      Timestamp.parse t = .ok x → Timestamp.parse u = .ok x → t = u) ∧
    (∀ key : Key, key = .created ∨ key = .closed → ∀ op ∈ Comparison.spellings, ∀ c,
      Comparison.parse op = .ok c → ∀ (l : DateLayout) (d : Date) (excluded timezoned : Bool),
      (Qualifier.mk key.name (op ++ l.spell d) excluded).fragment timezoned =
        .ok ⟨.single key.name (.ofFlag timezoned) (.date (l.told d)) c, excluded⟩) ∧
    ∀ qs rs, List.Forall₂ (Option.Rel Qualifier.Respelled) qs rs →
      ∀ fs path verbose timezoned noDefaults,
        runBuild fs path verbose ⟨qs, timezoned, noDefaults⟩ =
          runBuild fs path verbose ⟨rs, timezoned, noDefaults⟩ := by
  refine ⟨fun d dashed => ⟨(month dashed).parse_spell d, (weekday dashed).parse_spell d,
    (week dashed).parse_spell d⟩, fun d => ?_, fun l t u x ht hu htx hux => ?_,
    fun key hkey op hop c hc l d excluded timezoned => ?_, fun qs rs => runBuild_of_respelled⟩
  · have hmonday := d.ordinal_monday
    have hbounds := d.weekday_bounds
    have hthursday := d.thursday_add
    exact ⟨d.week_monday.2.2, by omega, by omega⟩
  · obtain ⟨d, rfl, -, rfl⟩ := (Timestamp.parse_eq_ok_iff_of_laidOut ht).1 htx
    obtain ⟨e, he, -, rfl⟩ := (Timestamp.parse_eq_ok_iff_of_laidOut hu).1 hux
    rw [Timestamp.date.inj he]
  · rw [Qualifier.fragment_of_dates hkey, dateTerm_spell hop hc]
    rfl

/-- The last Monday of 2008 in the first week of 2009, whose Tuesday has another text; then in a
query, with one spelling for another. -/
theorem respelling_new_year :
    let d : Date := (Date.of? 2008 12 29).get rfl
    let path := Path.ofText "c".text
    let week : Qualifier := ⟨"created".text, ">=2009W01".text, true⟩
    let month : Qualifier := ⟨"created".text, ">=20081229".text, true⟩
    (LaidOut (weekday true).pattern "2009-W01-1".text ∧
      LaidOut (weekday true).pattern "2009-W01-2".text ∧
      Timestamp.parse "2009-W01-1".text = .ok (.date d) ∧
      Timestamp.parse "2009-W01-2".text ≠ .ok (.date d)) ∧
    ((Key.created = .created ∨ Key.created = .closed) ∧ ">=".text ∈ Comparison.spellings ∧
      Comparison.parse ">=".text = .ok .geq ∧
      week.fragment true = .ok ⟨.single "created".text .timezoned (.date d) .geq, true⟩) ∧
    List.Forall₂ (Option.Rel Qualifier.Respelled) [some week] [some month] ∧
    runBuild ⟨[], []⟩ path false ⟨[some week], false, true⟩ =
      .ok ⟨0, "-created:>=2008-12-29 \n".text, []⟩ := by
  intro d path week month
  obtain ⟨spelled, -, unique, single, build⟩ := respelling
  have hkey : Key.created = .created ∨ Key.created = .closed := .inl rfl
  have hop : ">=".text ∈ Comparison.spellings := by decide
  have hday : (weekday true).spell d = "2009-W01-1".text := by decide +kernel
  have hweek : (DateLayout.week false).spell d = "2009W01".text := by decide +kernel
  have hmonth : (DateLayout.month false).spell d = "20081229".text := by decide
  have htold : (DateLayout.week false).told d = d := told_week_eq_self.2 (by decide)
  have hmonday : LaidOut (weekday true).pattern "2009-W01-1".text := by decide
  have htuesday : LaidOut (weekday true).pattern "2009-W01-2".text := by decide
  have hread : Timestamp.parse "2009-W01-1".text = .ok (.date d) := hday ▸ (spelled d true).2.1
  have hother : Timestamp.parse "2009-W01-2".text ≠ .ok (.date d) := fun h =>
    absurd (unique (weekday true) _ _ _ hmonday htuesday hread h) (by decide)
  have hfragment := single .created hkey ">=".text hop .geq rfl (.week false) d true true
  rw [hweek, htold] at hfragment
  have hsame : Qualifier.Respelled week month := by
    have h := Qualifier.Respelled.single hkey hop (l := .week false) (m := .month false) (e := d)
      htold true
    rwa [hweek, hmonth] at h
  have hrespelled : List.Forall₂ (Option.Rel Qualifier.Respelled) [some week] [some month] :=
    .cons (.some hsame) .nil
  refine ⟨⟨hmonday, htuesday, hread, hother⟩, ⟨hkey, hop, rfl, hfragment⟩, hrespelled, ?_⟩
  rw [build _ _ hrespelled]
  rfl

end DateLayout

end SearchQuery
