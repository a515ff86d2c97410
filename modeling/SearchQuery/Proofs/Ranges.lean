import SearchQuery.Fragment
import SearchQuery.Proofs.Timestamp.ReadBack

/-!
# Which ranges are printed

A range is checked by its ends as they are, and its text shows less of them: a day without its zone,
or a time without the parts of a second.

**Theorem (`range_prints`).** A range renders exactly when its start is not after its end. The ends
in its text can be read back, and the instant of the first is after that of the second exactly when
`Reverses` says so: when the day of the start comes after that of the end, or when the start loses
less than the end does, by more than what is between them.

Neither can happen with one zone at both ends, or with zones of whole seconds where times are shown
(`not_reverses_of_zone`, `not_reverses_of_whole_seconds`). With two zones the days can be the wrong
way round (`range_prints_reversed_days`).
-/

namespace SearchQuery

/-! ## Ends in reverse -/

namespace DateFormat

/-- A format shows the end of a range before its start. -/
def Reverses (start finish : Timestamp) : DateFormat → Prop
  | .date => finish.day.ordinal < start.day.ordinal
  | .timezoned => finish.instant - start.instant <
      (finish.moment.clock.micro.val : Int) - start.moment.clock.micro.val

theorem reverses_iff {f : DateFormat} {start finish : Timestamp} :
    f.Reverses start finish ↔ (f.shown finish).instant < (f.shown start).instant := by
  cases f with
  | date =>
    rw [instant_shown_date, instant_shown_date, Reverses]
    omega
  | timezoned =>
    rw [instant_shown_timezoned, instant_shown_timezoned, Reverses]
    omega

end DateFormat

theorem Clock.micros_lt (c : Clock) : c.micros < 86400000000 := by
  have := c.hour.isLt
  have := c.minute.isLt
  have := c.second.isLt
  have := c.micro.isLt
  simp only [Clock.micros, Clock.seconds]
  omega

theorem Timestamp.day_eq (t : Timestamp) : t.day = t.moment.date := by
  cases t with
  | date d => rfl
  | dateTime t => exact t.date_aware.symm

theorem not_reverses_of_zone {start finish : Timestamp}
    (hz : start.moment.zone = finish.moment.zone) (h : start.instant ≤ finish.instant) :
    ¬ DateFormat.Reverses start finish .date := by
  have hstart := start.moment.clock.micros_lt
  have hfinish := finish.moment.clock.micros_lt
  simp only [DateFormat.Reverses, Timestamp.day_eq]
  simp only [Timestamp.instant, DateTime.instant, DateTime.localMicros, hz] at h
  omega

/-- Where the offsets have no parts of a second, the seconds are in the order of the instants. -/
theorem not_reverses_of_whole_seconds {start finish : Timestamp}
    (hs : start.moment.zone.micros % 1000000 = 0) (hf : finish.moment.zone.micros % 1000000 = 0)
    (h : start.instant ≤ finish.instant) :
    ¬ DateFormat.Reverses start finish .timezoned := by
  have hstart := start.moment.clock.micro.isLt
  have hfinish := finish.moment.clock.micro.isLt
  simp only [DateFormat.Reverses]
  simp only [Timestamp.instant, DateTime.instant, DateTime.localMicros, Clock.micros] at h ⊢
  omega

/-! ## Ranges as text -/

namespace Fragment

theorem render_range (tag : Text) (format : DateFormat) (start finish : Timestamp)
    (excluded : Bool) :
    (Fragment.mk (.range tag format start finish) excluded).render =
      if start.after finish then .error (.query (.invertedPeriod tag start finish))
      else .ok (dash excluded ++ tag ++ .char ':' ::
        (format.write start ++ "..".text ++ format.write finish)) := by
  simp only [render, Term.render]
  split
  · rfl
  · simp [Except.map]

theorem cutAtDots_range (format : DateFormat) (start finish : Timestamp) :
    cutAtDots (format.write start ++ "..".text ++ format.write finish) =
      some (format.write start, format.write finish) := by
  rw [List.append_assoc]
  exact format.cutsBehind_write start (format.write finish)

/-- **What the text of a range says**: when there is one, and when its ends are in reverse. -/
theorem range_prints (tag : Text) (format : DateFormat) (start finish : Timestamp)
    (excluded : Bool) :
    ((∃ text, (Fragment.mk (.range tag format start finish) excluded).render = .ok text) ↔
      start.after finish = false) ∧
    ∀ text, (Fragment.mk (.range tag format start finish) excluded).render = .ok text →
      ∃ front back a b, text = dash excluded ++ tag ++ .char ':' :: (front ++ "..".text ++ back) ∧
        cutAtDots (front ++ "..".text ++ back) = some (front, back) ∧
        Timestamp.parse front = .ok a ∧ Timestamp.parse back = .ok b ∧
        (b.instant < a.instant ↔ format.Reverses start finish) := by
  rw [render_range]
  by_cases h : start.after finish = true
  · rw [if_pos h]
    refine ⟨⟨?_, ?_⟩, ?_⟩
    · intro ⟨text, ht⟩
      cases ht
    · intro hnot
      exact absurd h (Bool.not_eq_true _ ▸ hnot)
    · intro text ht
      cases ht
  · rw [if_neg h]
    -- Both texts read back as what the format shows, and the cut finds both.
    refine ⟨⟨fun _ => Bool.not_eq_true _ ▸ h, fun _ => ⟨_, rfl⟩⟩, ?_⟩
    intro text ht
    exact ⟨format.write start, format.write finish, format.shown start, format.shown finish,
      (Except.ok.inj ht).symm, cutAtDots_range format start finish, format.parse_write start,
      format.parse_write finish, DateFormat.reverses_iff.symm⟩

/-- Ends at one instant, of which the second loses its parts of a second. -/
theorem range_prints_reversed_seconds :
    let day : Date := (Date.of? 2024 6 1).get rfl
    let start : Timestamp := .dateTime ⟨day, ⟨12, 0, 0, 0⟩, some .utc, none⟩
    let finish : Timestamp :=
      .dateTime ⟨day, ⟨12, 0, 0, 900000⟩, some ⟨900000, by decide⟩, none⟩
    start.instant = finish.instant ∧
      ∃ front back a b, (Fragment.mk (.range "created".text .timezoned start finish) false).render =
          .ok ("created:".text ++ (front ++ "..".text ++ back)) ∧
        Timestamp.parse front = .ok a ∧ Timestamp.parse back = .ok b ∧ b.instant < a.instant := by
  intro day start finish
  have hnot : start.after finish = false := by decide
  have hr : DateFormat.Reverses start finish .timezoned := by
    simp only [DateFormat.Reverses]
    decide
  obtain ⟨hprints, htext⟩ := range_prints "created".text .timezoned start finish false
  obtain ⟨text, ht⟩ := hprints.2 hnot
  obtain ⟨front, back, a, b, htext, -, ha, hb, hiff⟩ := htext text ht
  exact ⟨by decide, front, back, a, b, ht.trans (congrArg _ htext), ha, hb, hiff.2 hr⟩

/-- A range that starts five hours ahead of UTC, and on the day after the one it ends on. -/
theorem range_prints_reversed_days :
    let first : Date := (Date.of? 2024 6 1).get rfl
    let second : Date := (Date.of? 2024 6 2).get rfl
    let start : Timestamp :=
      .dateTime ⟨second, ⟨1, 0, 0, 0⟩, some ⟨18000000000, by decide⟩, none⟩
    let finish : Timestamp := .dateTime ⟨first, ⟨23, 0, 0, 0⟩, some .utc, none⟩
    (Fragment.mk (.range "created".text .date start finish) false).render =
        .ok "created:2024-06-02..2024-06-01".text ∧
      Timestamp.parse "2024-06-02".text = .ok (.date second) ∧
      Timestamp.parse "2024-06-01".text = .ok (.date first) ∧
      (Timestamp.date first).instant < (Timestamp.date second).instant := by
  intro first second start finish
  have hnot : ¬ start.after finish = true := by decide
  have hstart : DateFormat.date.write start = "2024-06-02".text := by decide
  have hfinish : DateFormat.date.write finish = "2024-06-01".text := by decide
  refine ⟨?_, rfl, rfl, by decide⟩
  rw [render_range, if_neg hnot, hstart, hfinish]
  rfl

end Fragment

end SearchQuery
