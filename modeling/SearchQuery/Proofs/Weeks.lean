import SearchQuery.Proofs.Calendar

/-!
# Weeks

A week starts on a Monday and belongs to the year of its Thursday.

**Theorem (`Date.ofWeek?_eq_some_iff`).** The date that `ofWeek?` finds has this year, this week and
this day of the week, and every date is found under its own. So the weeks part the calendar: each
date has one place in one week, and a year has 52 weeks or 53 (`weeksInYear_bounds`).

The week of a date is said through its Thursday here (`Date.thursday`), the finder counts from the
first Monday of a year. The two meet where the first Thursday of a year is one of its first seven
days (`firstMonday_spec`): the Thursdays of a year are those from there on by sevens, up to the
first one of the next year (`firstMonday_succ`).
-/

namespace SearchQuery

namespace Date

/-! ## The weeks of a year -/

/-- The first week starts on a Monday, and its Thursday is among the first seven days. -/
theorem firstMonday_spec (year : Nat) :
    firstMonday year % 7 = 1 ∧ daysBeforeYear year < firstMonday year + 3 ∧
      firstMonday year + 3 ≤ daysBeforeYear year + 7 := by
  unfold firstMonday
  simp only
  split <;> omega

theorem firstMonday_succ (year : Nat) :
    firstMonday (year + 1) = firstMonday year + 7 * weeksInYear year := by
  have hmono : daysBeforeYear year ≤ daysBeforeYear (year + 1) :=
    daysBeforeYear_mono (Nat.le_succ year)
  have := firstMonday_spec year
  have := firstMonday_spec (year + 1)
  unfold weeksInYear
  omega

theorem weeksInYear_bounds {year : Nat} (h : 1 ≤ year) :
    52 ≤ weeksInYear year ∧ weeksInYear year ≤ 53 := by
  have hdays : daysInYear year = 365 ∨ daysInYear year = 366 := by
    unfold daysInYear
    split <;> simp
  have hnext := daysBeforeYear_succ h
  have := firstMonday_spec year
  have := firstMonday_spec (year + 1)
  have := firstMonday_succ year
  omega

theorem yearOfOrdinal_eq {n year : Nat} (hlow : daysBeforeYear year < n)
    (hhigh : n ≤ daysBeforeYear (year + 1)) : yearOfOrdinal n = year := by
  obtain ⟨-, hbefore, hafter⟩ := yearOfOrdinal_spec (Nat.one_le_of_lt hlow)
  have hle : yearOfOrdinal n < year + 1 :=
    daysBeforeYear_mono.reflect_lt (Nat.lt_of_lt_of_le hbefore hhigh)
  have hge : year < yearOfOrdinal n + 1 :=
    daysBeforeYear_mono.reflect_lt (Nat.lt_of_lt_of_le hlow hafter)
  omega

/-! ## The week of a date -/

/-- The day of the week, counted from Monday as 1. -/
def weekday (d : Date) : Nat := (d.ordinal + 6) % 7 + 1

/-- The number of the Thursday in the week of a date. -/
def thursday (d : Date) : Nat := d.ordinal + 4 - d.weekday

/-- The year that the week of a date belongs to. -/
def weekYear (d : Date) : Nat := yearOfOrdinal d.thursday

/-- The number of the week in its year: the number of Thursdays up to its own. -/
def week (d : Date) : Nat := (d.thursday - daysBeforeYear d.weekYear + 6) / 7

theorem weekday_bounds (d : Date) : 1 ≤ d.weekday ∧ d.weekday ≤ 7 := by
  unfold weekday
  omega

theorem thursday_add (d : Date) : d.thursday + d.weekday = d.ordinal + 4 ∧ d.thursday % 7 = 4 := by
  have := d.lt_ordinal
  unfold thursday weekday
  omega

theorem thursday_spec (d : Date) :
    1 ≤ d.weekYear ∧ daysBeforeYear d.weekYear < d.thursday ∧
      d.thursday ≤ daysBeforeYear (d.weekYear + 1) := by
  have := d.thursday_add
  exact yearOfOrdinal_spec (by omega)

/-- The last day of the calendar is a Friday, so no week of a date belongs to the year behind it. -/
theorem weekYear_le (d : Date) : d.weekYear ≤ 9999 := by
  have hlast : d.ordinal ≤ 3652059 := Nat.le_trans d.ordinal_le
    (daysBeforeYear_mono (Nat.succ_le_succ d.year_le))
  have hyears : daysBeforeYear 10000 = 3652059 := rfl
  have := d.thursday_add
  obtain ⟨-, hbefore, -⟩ := d.thursday_spec
  have hlt : d.weekYear < 10000 := daysBeforeYear_mono.reflect_lt (by omega)
  omega

/-- A date lies so many weeks and days behind the first Monday of the year of its week. -/
theorem ordinal_eq_week (d : Date) :
    1 ≤ d.week ∧ d.ordinal = firstMonday d.weekYear + 7 * (d.week - 1) + (d.weekday - 1) := by
  have := d.weekday_bounds
  have := d.thursday_add
  have := d.thursday_spec
  have := firstMonday_spec d.weekYear
  unfold week
  omega

theorem week_le_weeksInYear (d : Date) : d.week ≤ weeksInYear d.weekYear := by
  have := d.thursday_add
  have := d.thursday_spec
  have := d.ordinal_eq_week
  have := firstMonday_spec (d.weekYear + 1)
  have := firstMonday_succ d.weekYear
  omega

theorem week_le (d : Date) : d.week ≤ 53 :=
  Nat.le_trans d.week_le_weeksInYear (weeksInYear_bounds d.thursday_spec.1).2

/-- A date that lies so many weeks and days behind the first Monday of a year is in that week. -/
theorem week_of_ordinal {year week day : Nat} {d : Date}
    (hweek : 1 ≤ week ∧ week ≤ weeksInYear year) (hday : 1 ≤ day ∧ day ≤ 7)
    (h : d.ordinal = firstMonday year + 7 * (week - 1) + (day - 1)) :
    d.weekYear = year ∧ d.week = week ∧ d.weekday = day := by
  have hfirst := firstMonday_spec year
  have hnext := firstMonday_spec (year + 1)
  have hsucc := firstMonday_succ year
  have hweekday : d.weekday = day := by
    unfold weekday
    omega
  have hthursday : d.thursday = firstMonday year + 7 * (week - 1) + 3 := by
    have := d.thursday_add
    omega
  -- The Thursday is not before the first one of the year, and before the first one of the next.
  have hyear : d.weekYear = year := yearOfOrdinal_eq (by omega) (by omega)
  refine ⟨hyear, ?_, hweekday⟩
  rw [Date.week, hyear]
  omega

/-- **The date of a day in a week of a year** is the one whose year, week and day these are. -/
theorem ofWeek?_eq_some_iff {year week day : Nat} {d : Date} :
    ofWeek? year week day = some d ↔ d.weekYear = year ∧ d.week = week ∧ d.weekday = day := by
  constructor
  · intro h
    unfold ofWeek? at h
    split at h
    · rename_i hbounds
      obtain ⟨-, hfirst, hlast, hday⟩ := hbounds
      exact week_of_ordinal ⟨hfirst, hlast⟩ hday (ofOrdinal?_eq_some_iff.1 h)
    · cases h
  -- The week of a date is one its year has, so the guards hold.
  · rintro ⟨rfl, rfl, rfl⟩
    obtain ⟨hweek, hordinal⟩ := d.ordinal_eq_week
    rw [ofWeek?, if_pos ⟨d.thursday_spec.1, hweek, d.week_le_weeksInYear, d.weekday_bounds⟩,
      ofOrdinal?_eq_some_iff, hordinal]

/-- The last days of a year may be in the first week of the next. -/
example : ofWeek? 2009 1 1 = of? 2008 12 29 := by decide

/-! ## Mondays -/

theorem exists_monday (d : Date) : ∃ e, ofOrdinal? (d.ordinal + 1 - d.weekday) = some e := by
  have := d.thursday_add
  have := d.weekday_bounds
  exact exists_ofOrdinal? (d := d) (by omega) (by omega)

/-- The first day of the week of a date. -/
def monday (d : Date) : Date :=
  (ofOrdinal? (d.ordinal + 1 - d.weekday)).get (Option.isSome_iff_exists.2 d.exists_monday)

theorem ordinal_monday (d : Date) : d.monday.ordinal = d.ordinal + 1 - d.weekday :=
  ofOrdinal?_eq_some_iff.1 (Option.some_get _).symm

theorem week_monday (d : Date) :
    d.monday.weekYear = d.weekYear ∧ d.monday.week = d.week ∧ d.monday.weekday = 1 := by
  have := d.thursday_add
  have := d.weekday_bounds
  have := d.ordinal_monday
  obtain ⟨hweek, hordinal⟩ := d.ordinal_eq_week
  exact week_of_ordinal ⟨hweek, d.week_le_weeksInYear⟩ (by decide) (by omega)

theorem monday_eq_self {d : Date} (h : d.weekday = 1) : d.monday = d := by
  have hordinal := d.ordinal_monday
  rw [h, Nat.add_sub_cancel] at hordinal
  exact ordinal_injective hordinal

end Date

end SearchQuery
