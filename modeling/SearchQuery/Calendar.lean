/-!
# The calendar

Dates of the years 1 to 9999 in the Gregorian calendar, carried back to year 1, and the weeks of
ISO 8601.

**Day numbers.** Day 1 is the first of January of year 1, a Monday. `Date.ordinal` numbers the
dates and `Date.ofOrdinal?` goes back.

**Weeks.** A week starts on a Monday and belongs to the year that holds its Thursday, so week 1
of a year is the one that holds the fourth of January. `Date.ofWeek?` finds the date of a day in
a week.
-/

namespace SearchQuery

/-! ## Years and months -/

def isLeapYear (year : Nat) : Bool := year % 4 = 0 && (year % 100 ≠ 0 || year % 400 = 0)

/-- The lengths of the months of a year, January first. -/
def monthLengths (year : Nat) : List Nat :=
  [31, if isLeapYear year then 29 else 28, 31, 30, 31, 30, 31, 31, 30, 31, 30, 31]

/-- The length of a month counted from 1; zero when there is no such month. -/
def daysInMonth (year month : Nat) : Nat :=
  if month = 0 then 0 else (monthLengths year).getD (month - 1) 0

/-- The days of all years before a year. -/
def daysBeforeYear (year : Nat) : Nat :=
  (year - 1) * 365 + (year - 1) / 4 - (year - 1) / 100 + (year - 1) / 400

/-- The days of a year before the first of a month. -/
def daysBeforeMonth (year month : Nat) : Nat :=
  ((monthLengths year).take (month - 1)).foldr Nat.add 0

/-! ## Dates -/

/-- A day of the calendar. -/
structure Date where
  year : Nat
  month : Nat
  day : Nat
  year_pos : 1 ≤ year
  year_le : year ≤ 9999
  day_pos : 1 ≤ day
  day_le : day ≤ daysInMonth year month
deriving DecidableEq, Repr

namespace Date

/-- The date with these numbers, if there is one. -/
def of? (year month day : Nat) : Option Date :=
  if h : (1 ≤ year ∧ year ≤ 9999) ∧ 1 ≤ day ∧ day ≤ daysInMonth year month then
    some ⟨year, month, day, h.1.1, h.1.2, h.2.1, h.2.2⟩
  else none

@[simp] theorem of?_self (d : Date) : of? d.year d.month d.day = some d :=
  dif_pos ⟨⟨d.year_pos, d.year_le⟩, d.day_pos, d.day_le⟩

/-- The number of a date, counted from the first day of year 1. -/
def ordinal (d : Date) : Nat := daysBeforeYear d.year + daysBeforeMonth d.year d.month + d.day

/-- The month and the day that a day of the year falls on, where `month` is the number of the
first of the remaining months. -/
def monthAndDay : List Nat → Nat → Nat → Nat × Nat
  | [], month, day => (month, day)
  | length :: rest, month, day =>
    if day ≤ length then (month, day) else monthAndDay rest (month + 1) (day - length)

/-- The year of a day number. The estimate from the mean length of a year is off by one at most. -/
def yearOfOrdinal (n : Nat) : Nat :=
  let estimate := (n - 1) * 400 / 146097 + 1
  if n ≤ daysBeforeYear estimate then estimate - 1
  else if daysBeforeYear (estimate + 1) < n then estimate + 1
  else estimate

/-- The date with a day number, if its year is one of the calendar's. -/
def ofOrdinal? (n : Nat) : Option Date :=
  let year := yearOfOrdinal n
  let (month, day) := monthAndDay (monthLengths year) 1 (n - daysBeforeYear year)
  of? year month day

/-! ## Weeks -/

/-- The day number of the Monday of a year's first week. -/
def firstMonday (year : Nat) : Nat :=
  let newYear := daysBeforeYear year + 1
  let weekday := (newYear + 6) % 7
  if weekday ≤ 3 then newYear - weekday else newYear + 7 - weekday

/-- The number of weeks of a year. -/
def weeksInYear (year : Nat) : Nat := (firstMonday (year + 1) - firstMonday year) / 7

/-- The date of a day, counted from Monday as 1, in a week of a year. -/
def ofWeek? (year week day : Nat) : Option Date :=
  if 1 ≤ year ∧ 1 ≤ week ∧ week ≤ weeksInYear year ∧ 1 ≤ day ∧ day ≤ 7 then
    ofOrdinal? (firstMonday year + 7 * (week - 1) + (day - 1))
  else none

end Date

end SearchQuery
