import Mathlib.Algebra.BigOperators.Group.List.Basic
import Mathlib.Algebra.Order.BigOperators.Group.List
import Mathlib.SetTheory.Cardinal.Finite
import SearchQuery.Calendar

/-!
# Day numbers count the days

**Theorem (`Date.ordinal_eq`).** The number of a date is the number of dates before it, plus one.
So the difference of two day numbers is the number of days between them, over leap years, the
lengths of the months and the ends of years.

Dates are ordered by their fields, the year first (`Date.Before`). The day numbers keep this order
(`ordinal_lt_iff`): a month adds its length to the days before it (`daysBeforeMonth_succ`), and a
year adds the sum of the lengths of its months (`daysBeforeYear_succ`). They leave nothing out
either: each number up to that of the last day belongs to the date that `Date.ofOrdinal?` finds
(`ofOrdinal?_eq_some_iff`).
-/

namespace SearchQuery

/-! ## Months -/

def daysInYear (year : Nat) : Nat := if isLeapYear year then 366 else 365

theorem sum_monthLengths (year : Nat) : (monthLengths year).sum = daysInYear year := by
  unfold monthLengths daysInYear
  split <;> rfl

theorem daysBeforeMonth_eq_sum (year month : Nat) :
    daysBeforeMonth year month = ((monthLengths year).take (month - 1)).sum := rfl

theorem daysBeforeMonth_succ {month : Nat} (h : 1 ≤ month) (year : Nat) :
    daysBeforeMonth year (month + 1) = daysBeforeMonth year month + daysInMonth year month := by
  have hsucc : month + 1 - 1 = month - 1 + 1 := by omega
  rw [daysBeforeMonth_eq_sum, daysBeforeMonth_eq_sum, hsucc, List.take_add_one, List.sum_append,
    daysInMonth, if_neg (by omega), List.getD_eq_getElem?_getD]
  cases (monthLengths year)[month - 1]? <;> simp

theorem daysBeforeMonth_mono (year : Nat) {m n : Nat} (h : m ≤ n) :
    daysBeforeMonth year m ≤ daysBeforeMonth year n :=
  (List.take_sublist_take_left (Nat.sub_le_sub_right h 1)).sum_le_sum fun _ _ => Nat.zero_le _

theorem daysBeforeMonth_le (year month : Nat) : daysBeforeMonth year month ≤ daysInYear year := by
  rw [← sum_monthLengths]
  exact (List.take_sublist _ _).sum_le_sum fun _ _ => Nat.zero_le _

/-! ## Years -/

theorem daysBeforeYear_succ {year : Nat} (h : 1 ≤ year) :
    daysBeforeYear (year + 1) = daysBeforeYear year + daysInYear year := by
  obtain ⟨years, rfl⟩ := Nat.exists_eq_add_of_le' h
  have hhundred : years / 100 ≤ years / 4 := Nat.div_le_div_left (by decide) (by decide)
  have hfour : (years + 1) % 100 = 0 → (years + 1) % 4 = 0 := by omega
  have hcentury : (years + 1) % 400 = 0 → (years + 1) % 100 = 0 := by omega
  simp only [daysBeforeYear, daysInYear, isLeapYear, Nat.add_sub_cancel, Nat.succ_div,
    Nat.dvd_iff_mod_eq_zero, Bool.and_eq_true, Bool.or_eq_true, decide_eq_true_eq]
  generalize (years + 1) % 4 = a, (years + 1) % 100 = b, (years + 1) % 400 = c at hfour hcentury ⊢
  generalize years / 4 = x, years / 100 = y, years / 400 = z at hhundred ⊢
  split <;> split <;> split <;> split <;> omega

theorem daysBeforeYear_mono : Monotone daysBeforeYear := by
  refine monotone_nat_of_le_succ fun year => ?_
  cases year with
  | zero => exact Nat.le_refl 0
  | succ years =>
    rw [daysBeforeYear_succ (Nat.succ_pos years)]
    exact Nat.le_add_right _ _

/-- The days before a year, against the mean length of a year. -/
theorem daysBeforeYear_bounds (years : Nat) :
    146097 * years < 400 * daysBeforeYear (years + 1) + 800 ∧
      400 * daysBeforeYear (years + 1) < 146097 * years + 400 := by
  unfold daysBeforeYear
  omega

namespace Date

/-! ## The order of dates -/

/-- Whether a date comes before another: by the year, then by the month, then by the day. -/
def Before (d e : Date) : Prop :=
  d.year < e.year ∨ d.year = e.year ∧ (d.month < e.month ∨ d.month = e.month ∧ d.day < e.day)

instance (d e : Date) : Decidable (d.Before e) := inferInstanceAs (Decidable (_ ∨ _))

theorem eq_of_fields {d e : Date} (hyear : d.year = e.year) (hmonth : d.month = e.month)
    (hday : d.day = e.day) : d = e := by
  cases d
  cases e
  simp only at hyear hmonth hday
  subst hyear hmonth hday
  rfl

theorem before_trichotomy (d e : Date) : d.Before e ∨ d = e ∨ e.Before d := by
  by_cases h : d.year = e.year ∧ d.month = e.month ∧ d.day = e.day
  · exact .inr (.inl (eq_of_fields h.1 h.2.1 h.2.2))
  · unfold Before
    omega

theorem month_pos (d : Date) : 1 ≤ d.month := by
  have h := Nat.le_trans d.day_pos d.day_le
  unfold daysInMonth at h
  split at h <;> omega

/-- A day is within its month, and so within the days before the next. -/
theorem dayOfYear_le (d : Date) :
    daysBeforeMonth d.year d.month + d.day ≤ daysBeforeMonth d.year (d.month + 1) := by
  rw [daysBeforeMonth_succ d.month_pos]
  exact Nat.add_le_add_left d.day_le _

theorem ordinal_le (d : Date) : d.ordinal ≤ daysBeforeYear (d.year + 1) := by
  have hmonth := d.dayOfYear_le
  have hyear := daysBeforeMonth_le d.year (d.month + 1)
  rw [daysBeforeYear_succ d.year_pos, ordinal]
  omega

theorem lt_ordinal (d : Date) : daysBeforeYear d.year < d.ordinal := by
  have := d.day_pos
  rw [ordinal]
  omega

theorem ordinal_lt_of_before {d e : Date} (h : d.Before e) : d.ordinal < e.ordinal := by
  rcases h with hyear | ⟨hyear, hmonth | ⟨hmonth, hday⟩⟩
  · calc d.ordinal
      _ ≤ daysBeforeYear (d.year + 1) := d.ordinal_le
      _ ≤ daysBeforeYear e.year := daysBeforeYear_mono hyear
      _ < e.ordinal := e.lt_ordinal
  -- In one year, the months up to that of the earlier date are over.
  · have hd := d.dayOfYear_le
    have he : daysBeforeMonth d.year (d.month + 1) ≤ daysBeforeMonth d.year e.month :=
      daysBeforeMonth_mono _ hmonth
    have := e.day_pos
    rw [ordinal, ordinal, ← hyear]
    omega
  · rw [ordinal, ordinal, ← hyear, ← hmonth]
    omega

/-- **Day numbers are in the order of the dates.** -/
theorem ordinal_lt_iff {d e : Date} : d.ordinal < e.ordinal ↔ d.Before e := by
  refine ⟨fun h => ?_, ordinal_lt_of_before⟩
  rcases before_trichotomy d e with hbefore | rfl | hbefore
  · exact hbefore
  · exact absurd h (Nat.lt_irrefl _)
  · exact absurd (ordinal_lt_of_before hbefore) (Nat.lt_asymm h)

theorem ordinal_injective : Function.Injective ordinal := by
  intro d e h
  rcases before_trichotomy d e with hbefore | heq | hbefore
  · exact absurd h (Nat.ne_of_lt (ordinal_lt_of_before hbefore))
  · exact heq
  · exact absurd h.symm (Nat.ne_of_lt (ordinal_lt_of_before hbefore))

/-! ## The date with a number -/

theorem exists_of? {year month day : Nat} (hyear : 1 ≤ year ∧ year ≤ 9999)
    (hday : 1 ≤ day ∧ day ≤ daysInMonth year month) : ∃ d, of? year month day = some d :=
  ⟨_, dif_pos ⟨hyear, hday⟩⟩

theorem of?_eq_some {year month day : Nat} {d : Date} (h : of? year month day = some d) :
    d.year = year ∧ d.month = month ∧ d.day = day := by
  unfold of? at h
  split at h
  · obtain rfl := Option.some.inj h
    exact ⟨rfl, rfl, rfl⟩
  · cases h

/-- The year of a day number: the days before it are fewer, and those before the next are not. -/
theorem yearOfOrdinal_spec {n : Nat} (h : 1 ≤ n) :
    1 ≤ yearOfOrdinal n ∧ daysBeforeYear (yearOfOrdinal n) < n ∧
      n ≤ daysBeforeYear (yearOfOrdinal n + 1) := by
  unfold yearOfOrdinal
  simp only
  generalize hq : (n - 1) * 400 / 146097 = q
  have hfirst : daysBeforeYear 1 = 0 := rfl
  have hnext : 146097 * (q + 2) < 400 * daysBeforeYear (q + 1 + 1 + 1) + 800 :=
    (daysBeforeYear_bounds (q + 2)).1
  -- The estimate is off by at most one year, and each correction undoes one side.
  by_cases hlow : n ≤ daysBeforeYear (q + 1)
  · rw [if_pos hlow, Nat.add_sub_cancel]
    cases q with
    | zero =>
      rw [Nat.zero_add, hfirst] at hlow
      omega
    | succ q =>
      have hbefore := (daysBeforeYear_bounds q).2
      exact ⟨by omega, by omega, hlow⟩
  · rw [if_neg hlow]
    by_cases hhigh : daysBeforeYear (q + 1 + 1) < n
    · rw [if_pos hhigh]
      exact ⟨by omega, hhigh, by omega⟩
    · rw [if_neg hhigh]
      exact ⟨by omega, by omega, by omega⟩

/-- A day of the year falls on a day of the month that it lies in. -/
theorem monthAndDay_spec (lengths : List Nat) (month : Nat) {day : Nat} (hpos : 1 ≤ day)
    (hle : day ≤ lengths.sum) :
    ∃ i rest, monthAndDay lengths month day = (month + i, rest) ∧ 1 ≤ rest ∧
      rest ≤ lengths.getD i 0 ∧ (lengths.take i).sum + rest = day := by
  induction lengths generalizing month day with
  | nil =>
    rw [List.sum_nil] at hle
    omega
  | cons length lengths ih =>
    rw [monthAndDay]
    by_cases hday : day ≤ length
    · rw [if_pos hday]
      exact ⟨0, day, rfl, hpos, hday, Nat.zero_add _⟩
    · rw [if_neg hday]
      rw [List.sum_cons] at hle
      obtain ⟨i, rest, heq, hrest, hlength, hsum⟩ :=
        ih (month + 1) (show 1 ≤ day - length by omega) (by omega)
      refine ⟨i + 1, rest, by rw [heq, Nat.add_right_comm, Nat.add_assoc], hrest, hlength, ?_⟩
      rw [List.take_succ_cons, List.sum_cons]
      omega

theorem ofOrdinal?_eq {n : Nat} (h : 1 ≤ n) :
    ∃ month day, ofOrdinal? n = of? (yearOfOrdinal n) month day ∧
      (1 ≤ day ∧ day ≤ daysInMonth (yearOfOrdinal n) month) ∧
      daysBeforeYear (yearOfOrdinal n) + daysBeforeMonth (yearOfOrdinal n) month + day = n := by
  obtain ⟨hyear, hlow, hhigh⟩ := yearOfOrdinal_spec h
  rw [daysBeforeYear_succ hyear, ← sum_monthLengths] at hhigh
  obtain ⟨i, day, heq, hday, hlength, hsum⟩ :=
    monthAndDay_spec (monthLengths (yearOfOrdinal n)) 1
      (show 1 ≤ n - daysBeforeYear (yearOfOrdinal n) by omega) (by omega)
  have hmonth : 1 + i - 1 = i := by omega
  refine ⟨1 + i, day, ?_, ⟨hday, ?_⟩, ?_⟩
  · simp only [ofOrdinal?, heq]
  · rw [daysInMonth, if_neg (by omega), hmonth]
    exact hlength
  · rw [daysBeforeMonth_eq_sum, hmonth]
    omega

theorem ordinal_of_ofOrdinal? {n : Nat} {d : Date} (h : ofOrdinal? n = some d) : d.ordinal = n := by
  rcases Nat.eq_zero_or_pos n with rfl | hn
  · cases h
  · obtain ⟨month, day, heq, -, hsum⟩ := ofOrdinal?_eq hn
    obtain ⟨hyear, hmonth, hday⟩ := of?_eq_some (heq.symm.trans h)
    rw [ordinal, hyear, hmonth, hday, hsum]

/-- No number up to that of a date is left out. -/
theorem exists_ofOrdinal? {n : Nat} {d : Date} (hpos : 1 ≤ n) (hle : n ≤ d.ordinal) :
    ∃ e, ofOrdinal? n = some e := by
  obtain ⟨month, day, heq, hday, -⟩ := ofOrdinal?_eq hpos
  obtain ⟨hyear, hlow, -⟩ := yearOfOrdinal_spec hpos
  have hyears : yearOfOrdinal n ≤ d.year := by
    apply Nat.le_of_not_lt
    intro hlt
    have hmono : daysBeforeYear (d.year + 1) ≤ daysBeforeYear (yearOfOrdinal n) :=
      daysBeforeYear_mono hlt
    have := d.ordinal_le
    omega
  rw [heq]
  exact exists_of? ⟨hyear, Nat.le_trans hyears d.year_le⟩ hday

/-- **The date with a number** is found, where there is one. -/
theorem ofOrdinal?_eq_some_iff {n : Nat} {d : Date} : ofOrdinal? n = some d ↔ d.ordinal = n := by
  refine ⟨ordinal_of_ofOrdinal?, ?_⟩
  rintro rfl
  obtain ⟨e, he⟩ := exists_ofOrdinal? (Nat.one_le_of_lt d.lt_ordinal) (Nat.le_refl _)
  rw [he, ordinal_injective (ordinal_of_ofOrdinal? he)]

/-! ## Counting -/

/-- How many dates come before a date. -/
noncomputable def daysBefore (d : Date) : Nat := Nat.card {e : Date // e.Before d}

/-- **The number of a date** counts the dates up to it. -/
theorem ordinal_eq (d : Date) : d.ordinal = d.daysBefore + 1 := by
  have hpos := d.lt_ordinal
  have hlt : ∀ e : {e : Date // e.Before d}, e.1.ordinal - 1 < d.ordinal - 1 := by
    intro e
    have := e.1.lt_ordinal
    have := ordinal_lt_of_before e.2
    omega
  -- The dates before a date are numbered from one, without a gap.
  have hbijective : Function.Bijective fun e : {e : Date // e.Before d} =>
      (⟨e.1.ordinal - 1, hlt e⟩ : Fin (d.ordinal - 1)) := by
    constructor
    · intro e f h
      have he := e.1.lt_ordinal
      have hf := f.1.lt_ordinal
      have h := Fin.mk.inj h
      exact Subtype.ext (ordinal_injective (by omega))
    · intro n
      have hn := n.isLt
      obtain ⟨e, he⟩ := exists_ofOrdinal? (n := n.val + 1) (d := d) (by omega) (by omega)
      have heq := ordinal_of_ofOrdinal? he
      have hbefore : e.Before d := ordinal_lt_iff.1 (by omega)
      exact ⟨⟨e, hbefore⟩, Fin.ext (by simp only [heq, Nat.add_sub_cancel])⟩
  rw [daysBefore, Nat.card_eq_of_bijective _ hbijective, Nat.card_fin]
  omega

end Date

end SearchQuery
