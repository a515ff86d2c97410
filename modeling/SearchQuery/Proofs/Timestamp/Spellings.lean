import SearchQuery.Proofs.Timestamp.Rfc3339
import SearchQuery.Proofs.Timestamp.Shape
import SearchQuery.Proofs.Weeks

/-!
# Spellings of dates

A date is spelled by its month and day or by its week, with dashes everywhere or nowhere, and a week
may go without its day.

**Theorem (`readDate_eq_some_iff`).** The reader of dates takes the six spellings of a date and
nothing else. A layout without a day spells Mondays only.

**Theorem (`Timestamp.parse_eq_ok_iff_of_laidOut`).** A text in one of the six layouts is read as
the date that it spells in this layout, or not at all. So the layouts are not taken for one another,
nor for a date with a time, and two texts of one layout never give the same date.

A numeral is read only where it is written (`readFixed_eq_some_iff`), which turns each part of the
reader into an equation between texts. The layouts are patterns again, and a text has one of them at
most (`DateLayout.pattern_injective`).
-/

namespace SearchQuery

/-! ## Numerals -/

theorem digitValue_lt {c : CodePoint} (h : c.isDigit = true) : digitValue c < 10 := by
  have hzero : '0'.toNat = 48 := rfl
  have := toNat_of_isDigit h
  rw [digitValue, hzero]
  omega

theorem digit_digitValue {c : CodePoint} (h : c.isDigit = true) : digit (digitValue c) = c := by
  have hall : ∀ n < 10, digit n = .char (Char.ofNat (n + 48)) := by decide
  have hlt := digitValue_lt h
  cases c with
  | half n => cases h
  | char c =>
    have hvalue : digitValue (.char c) = c.toNat - 48 := rfl
    have hback : c.toNat - 48 + 48 = c.toNat := Nat.sub_add_cancel (toNat_of_isDigit h).1
    rw [hvalue] at hlt ⊢
    rw [hall _ hlt, hback, Char.ofNat_toNat]

/-- Only the places of a numeral count. -/
theorem fixed_mod (width n : Nat) : fixed width (n % 10 ^ width) = fixed width n := by
  induction width generalizing n with
  | zero => rfl
  | succ width ih =>
    have hfirst : n % 10 ^ (width + 1) / 10 ^ width = n / 10 ^ width % 10 := by
      rw [Nat.pow_succ, Nat.mod_mul_right_div_self]
    have hrest : n % 10 ^ (width + 1) % 10 ^ width = n % 10 ^ width :=
      Nat.mod_mod_of_dvd n (Nat.pow_dvd_pow 10 (Nat.le_succ width))
    have hdigit : digit (n / 10 ^ width % 10) = digit (n / 10 ^ width) := by
      rw [digit, digit, Nat.mod_mod]
    rw [fixed, fixed, Nat.pow_eq, hfirst, hdigit, ← ih (n % 10 ^ (width + 1)), hrest, ih]

theorem fixed_succ {width n : Nat} (h : n < 10 ^ width) (first : Nat) :
    fixed (width + 1) (first * 10 ^ width + n) = digit first :: fixed width n := by
  have hfirst : (first * 10 ^ width + n) / 10 ^ width = first := by
    rw [Nat.mul_comm, Nat.mul_add_div (Nat.pow_pos (by decide)), Nat.div_eq_of_lt h, Nat.add_zero]
  have hrest : (first * 10 ^ width + n) % 10 ^ width = n := by
    rw [Nat.mul_comm, Nat.mul_add_mod, Nat.mod_eq_of_lt h]
  rw [fixed, Nat.pow_eq, hfirst, ← fixed_mod width (_ + n), hrest]

theorem exists_fixed_of_readFixedFrom {width value n : Nat} {t rest : Text}
    (h : readFixedFrom width value t = some (n, rest)) :
    ∃ m < 10 ^ width, t = fixed width m ++ rest := by
  induction width generalizing value t with
  | zero =>
    obtain ⟨-, rfl⟩ := Prod.mk.inj (Option.some.inj h)
    exact ⟨0, Nat.one_pos, rfl⟩
  | succ width ih =>
    cases t with
    | nil => cases h
    | cons c r =>
      rw [readFixedFrom] at h
      split at h
      · rename_i hc
        obtain ⟨m, hm, rfl⟩ := ih h
        refine ⟨digitValue c * 10 ^ width + m, ?_, ?_⟩
        · calc digitValue c * 10 ^ width + m
            _ < digitValue c * 10 ^ width + 10 ^ width := Nat.add_lt_add_left hm _
            _ = (digitValue c + 1) * 10 ^ width := (Nat.succ_mul _ _).symm
            _ ≤ 10 ^ (width + 1) := by
              rw [Nat.pow_succ']
              exact Nat.mul_le_mul_right _ (digitValue_lt hc)
        · rw [fixed_succ hm, digit_digitValue hc, List.cons_append]
      · cases h

/-- **A numeral is read only where it is written.** -/
theorem readFixed_eq_some_iff {width n : Nat} {t rest : Text} :
    readFixed width t = some (n, rest) ↔ n < 10 ^ width ∧ t = fixed width n ++ rest := by
  constructor
  · intro h
    obtain ⟨m, hm, rfl⟩ := exists_fixed_of_readFixedFrom h
    have hread := readFixed_fixed hm rest
    rw [h] at hread
    obtain ⟨rfl, -⟩ := Prod.mk.inj (Option.some.inj hread)
    exact ⟨hm, rfl⟩
  · rintro ⟨hn, rfl⟩
    exact readFixed_fixed hn rest

theorem readFixed_last_iff {width n : Nat} {t : Text} :
    readFixed width t = some (n, []) ↔ n < 10 ^ width ∧ t = fixed width n := by
  rw [readFixed_eq_some_iff, List.append_nil]

/-! ## Layouts -/

/-- A dash where a layout has dashes. -/
def dashIf (dashed : Bool) : Text := if dashed then [.char '-'] else []

/-- How a date may be laid out: by the month and the day, by the week alone, or by the week and its
day. -/
inductive DateLayout where
  | month (dashed : Bool)
  | week (dashed : Bool)
  | weekday (dashed : Bool)
deriving DecidableEq, Repr

namespace DateLayout

/-- The pattern of a layout, in which `0` stands for any digit. -/
def pattern : DateLayout → Text
  | month dashed => "0000".text ++ (dashIf dashed ++ ("00".text ++ (dashIf dashed ++ "00".text)))
  | week dashed => "0000".text ++ (dashIf dashed ++ "W00".text)
  | weekday dashed => "0000".text ++ (dashIf dashed ++ ("W00".text ++ (dashIf dashed ++ "0".text)))

/-- How a layout spells a date, or the week of a date. -/
def spell : DateLayout → Date → Text
  | month dashed, d =>
    fixed 4 d.year ++ (dashIf dashed ++ (fixed 2 d.month ++ (dashIf dashed ++ fixed 2 d.day)))
  | week dashed, d => fixed 4 d.weekYear ++ (dashIf dashed ++ .char 'W' :: fixed 2 d.week)
  | weekday dashed, d =>
    fixed 4 d.weekYear ++ (dashIf dashed ++ .char 'W' :: (fixed 2 d.week ++
      (dashIf dashed ++ fixed 1 d.weekday)))

/-- The date that a spelling tells: a layout without a day tells the Monday of the week. -/
def told : DateLayout → Date → Date
  | month _, d => d
  | week _, d => d.monday
  | weekday _, d => d

theorem spell_told (l : DateLayout) (d : Date) :
    l.spell (l.told d) = l.spell d ∧ l.told (l.told d) = l.told d := by
  cases l with
  | month _ => exact ⟨rfl, rfl⟩
  | week _ =>
    obtain ⟨hyear, hweek, hday⟩ := d.week_monday
    exact ⟨by rw [told, spell, spell, hyear, hweek], Date.monday_eq_self hday⟩
  | weekday _ => exact ⟨rfl, rfl⟩

theorem told_week_eq_self {dashed : Bool} {d : Date} :
    (week dashed).told d = d ↔ d.weekday = 1 := by
  refine ⟨fun h => ?_, Date.monday_eq_self⟩
  have hmonday := d.week_monday.2.2
  rwa [show d.monday = d from h] at hmonday

end DateLayout

/-! ## The reader of dates -/

theorem skipDash_eq_some_iff {dashed : Bool} {t u : Text} :
    (if dashed then match t with
        | .char '-' :: r => some r
        | _ => none
      else some t) = some u ↔ t = dashIf dashed ++ u := by
  cases dashed with
  | false => simp [dashIf]
  | true =>
    rw [if_pos rfl]
    split
    · simp [dashIf]
    · rename_i hdash
      refine iff_of_false (by simp) ?_
      rintro rfl
      exact hdash u rfl

theorem readWeekday_eq_some_iff {dashed : Bool} {t : Text} {day : Nat} :
    readWeekday dashed t = some day ↔
      t = [] ∧ day = 1 ∨ day < 10 ∧ t = dashIf dashed ++ fixed 1 day := by
  cases t with
  | nil =>
    have hne : ∀ n, [] ≠ dashIf dashed ++ fixed 1 n :=
      fun n h => List.cons_ne_nil _ _ (List.append_eq_nil_iff.1 h.symm).2
    simp [readWeekday, hne, eq_comm]
  | cons c r =>
    simp only [List.cons_ne_nil, false_and, false_or]
    constructor
    · intro h
      unfold readWeekday at h
      simp only at h
      split at h
      · rename_i hread
        obtain ⟨u, hdash, hdigit⟩ := Option.bind_eq_some_iff.1 hread
        obtain rfl := Option.some.inj h
        obtain ⟨hday, rfl⟩ := readFixed_last_iff.1 hdigit
        exact ⟨hday, skipDash_eq_some_iff.1 hdash⟩
      · cases h
    · rintro ⟨hday, ht⟩
      have hmod : day % 10 = day := Nat.mod_eq_of_lt hday
      rw [ht]
      cases dashed <;>
        simp [readWeekday, dashIf, fixed, readFixed, readFixedFrom, isDigit_digit, hmod]

/-- Behind the `W` stand the week of a date and its day, or the week of a Monday alone. -/
theorem readWeekDate_eq_some_iff {dashed : Bool} {year : Nat} {t : Text} {d : Date} :
    readWeekDate dashed year t = some d ↔ d.weekYear = year ∧
      (d.weekday = 1 ∧ t = fixed 2 d.week ∨
        t = fixed 2 d.week ++ (dashIf dashed ++ fixed 1 d.weekday)) := by
  constructor
  · intro h
    obtain ⟨⟨week, rest⟩, hweek, h⟩ := Option.bind_eq_some_iff.1 h
    obtain ⟨day, hday, h⟩ := Option.bind_eq_some_iff.1 h
    obtain ⟨rfl, rfl, rfl⟩ := Date.ofWeek?_eq_some_iff.1 h
    obtain ⟨-, rfl⟩ := readFixed_eq_some_iff.1 hweek
    rcases readWeekday_eq_some_iff.1 hday with ⟨rfl, hmonday⟩ | ⟨-, rfl⟩
    · exact ⟨rfl, .inl ⟨hmonday, List.append_nil _⟩⟩
    · exact ⟨rfl, .inr rfl⟩
  · rintro ⟨rfl, h⟩
    have hweek : d.week < 10 ^ 2 := Nat.lt_of_le_of_lt d.week_le (by decide)
    have hday : d.weekday < 10 := Nat.lt_of_le_of_lt d.weekday_bounds.2 (by decide)
    obtain ⟨rest, rfl, hrest⟩ : ∃ rest, t = fixed 2 d.week ++ rest ∧
        readWeekday dashed rest = some d.weekday := by
      rcases h with ⟨hmonday, rfl⟩ | rfl
      · exact ⟨[], (List.append_nil _).symm, readWeekday_eq_some_iff.2 (.inl ⟨rfl, hmonday⟩)⟩
      · exact ⟨_, rfl, readWeekday_eq_some_iff.2 (.inr ⟨hday, rfl⟩)⟩
    rw [readWeekDate, readFixed_fixed hweek]
    simp only [Option.bind_eq_bind, Option.bind_some, hrest]
    exact Date.ofWeek?_eq_some_iff.2 ⟨rfl, rfl, rfl⟩

/-- Behind the year stand the month and the day of a date. -/
theorem readMonthDate_eq_some_iff {dashed : Bool} {year : Nat} {t : Text} {d : Date} :
    readMonthDate dashed year t = some d ↔
      d.year = year ∧ t = fixed 2 d.month ++ (dashIf dashed ++ fixed 2 d.day) := by
  constructor
  · intro h
    obtain ⟨⟨month, rest⟩, hmonth, hrest⟩ := Option.bind_eq_some_iff.1 h
    obtain ⟨u, day, rfl, hday, hdate⟩ : ∃ u day, rest = dashIf dashed ++ u ∧
        readFixed 2 u = some (day, []) ∧ Date.of? year month day = some d := by
      cases dashed with
      | false =>
        obtain ⟨day, hday⟩ := readLast_eq_some_iff.1 hrest
        exact ⟨rest, day, rfl, hday⟩
      | true =>
        simp only [if_true] at hrest
        split at hrest
        · obtain ⟨day, hday⟩ := readLast_eq_some_iff.1 hrest
          exact ⟨_, day, rfl, hday⟩
        · cases hrest
    obtain ⟨-, rfl⟩ := readFixed_eq_some_iff.1 hmonth
    obtain ⟨-, rfl⟩ := readFixed_last_iff.1 hday
    obtain ⟨rfl, rfl, rfl⟩ := Date.of?_eq_some hdate
    exact ⟨rfl, rfl⟩
  · rintro ⟨rfl, rfl⟩
    have hday : readFixed 2 (fixed 2 d.day) = some (d.day, []) :=
      readFixed_last_iff.2 ⟨d.day_lt, rfl⟩
    rw [readMonthDate, readFixed_two d.month_lt]
    cases dashed <;> simp [dashIf, hday]

/-! ## The six spellings -/

theorem readDate_week {year : Nat} (h : year < 10 ^ 4) (dashed : Bool) (t : Text) :
    readDate (fixed 4 year ++ (dashIf dashed ++ .char 'W' :: t)) = readWeekDate dashed year t := by
  rw [readDate, readFixed_fixed h]
  cases dashed <;> rfl

/-- A digit behind the year, or behind its dash, belongs to a month. -/
theorem readDate_month {year : Nat} (h : year < 10 ^ 4) (dashed : Bool) {c : CodePoint}
    (hc : c.isDigit = true) (t : Text) :
    readDate (fixed 4 year ++ (dashIf dashed ++ c :: t)) = readMonthDate dashed year (c :: t) := by
  have hdash : c ≠ .char '-' := by
    rintro rfl
    cases hc
  have hletter : c ≠ .char 'W' := by
    rintro rfl
    cases hc
  rw [readDate, readFixed_fixed h]
  cases dashed <;> simp [dashIf, hdash, hletter]

/-- **What is read as a date** is one of the six spellings of this date. -/
theorem readDate_eq_some_iff {t : Text} {d : Date} :
    readDate t = some d ↔ ∃ l : DateLayout, l.told d = d ∧ t = l.spell d := by
  constructor
  · intro h
    obtain ⟨⟨year, rest⟩, hyear, hrest⟩ := Option.bind_eq_some_iff.1 h
    obtain ⟨-, rfl⟩ := readFixed_eq_some_iff.1 hyear
    have hweek : ∀ dashed r, readWeekDate dashed year r = some d → ∃ l : DateLayout,
        l.told d = d ∧ fixed 4 year ++ (dashIf dashed ++ .char 'W' :: r) = l.spell d := by
      intro dashed r h
      obtain ⟨rfl, ⟨hmonday, rfl⟩ | rfl⟩ := readWeekDate_eq_some_iff.1 h
      · exact ⟨.week dashed, DateLayout.told_week_eq_self.2 hmonday, rfl⟩
      · exact ⟨.weekday dashed, rfl, rfl⟩
    have hmonth : ∀ dashed r, readMonthDate dashed year r = some d → ∃ l : DateLayout,
        l.told d = d ∧ fixed 4 year ++ (dashIf dashed ++ r) = l.spell d := by
      intro dashed r h
      obtain ⟨rfl, rfl⟩ := readMonthDate_eq_some_iff.1 h
      exact ⟨.month dashed, rfl, rfl⟩
    simp only at hrest
    -- A W marks a week, and a dash behind the year the longer spelling.
    split at hrest
    · exact hweek true _ hrest
    · exact hmonth true _ hrest
    · exact hweek false _ hrest
    · exact hmonth false _ hrest
  · rintro ⟨l, htold, rfl⟩
    have hweekYear : d.weekYear < 10 ^ 4 := Nat.lt_of_le_of_lt d.weekYear_le (by decide)
    cases l with
    | month dashed =>
      exact (readDate_month d.year_lt dashed (isDigit_digit _) _).trans
        (readMonthDate_eq_some_iff.2 ⟨rfl, rfl⟩)
    | week dashed =>
      have hmonday := DateLayout.told_week_eq_self.1 htold
      exact (readDate_week hweekYear dashed _).trans
        (readWeekDate_eq_some_iff.2 ⟨rfl, .inl ⟨hmonday, rfl⟩⟩)
    | weekday dashed =>
      exact (readDate_week hweekYear dashed _).trans
        (readWeekDate_eq_some_iff.2 ⟨rfl, .inr rfl⟩)

/-! ## Texts of one layout -/

instance (p t : Text) : Decidable (LaidOut p t) := inferInstanceAs (Decidable (List.Forall₂ _ p t))

theorem laidOut_dashIf (dashed : Bool) : LaidOut (dashIf dashed) (dashIf dashed) := by
  cases dashed with
  | false => exact List.Forall₂.nil
  | true => exact LaidOut.cons (by decide) List.Forall₂.nil

theorem DateLayout.laidOut_spell (l : DateLayout) (d : Date) : LaidOut l.pattern (l.spell d) := by
  have hletter : CodePoint.char 'W' ≠ .char '0' := by decide
  cases l with
  | month dashed =>
    exact (laidOut_fixed 4 d.year).append ((laidOut_dashIf dashed).append
      ((laidOut_fixed 2 d.month).append ((laidOut_dashIf dashed).append (laidOut_fixed 2 d.day))))
  | week dashed =>
    exact (laidOut_fixed 4 d.weekYear).append ((laidOut_dashIf dashed).append
      ((laidOut_fixed 2 d.week).cons hletter))
  | weekday dashed =>
    exact (laidOut_fixed 4 d.weekYear).append ((laidOut_dashIf dashed).append
      (((laidOut_fixed 2 d.week).append ((laidOut_dashIf dashed).append
        (laidOut_fixed 1 d.weekday))).cons hletter))

/-- Where patterns have no digit but `0`, a text has one of them at most. -/
theorem LaidOut.unique {p q t : Text} (hp : LaidOut p t) (hq : LaidOut q t)
    (hpzero : ∀ c ∈ p, c.isDigit = true → c = .char '0')
    (hqzero : ∀ c ∈ q, c.isDigit = true → c = .char '0') : p = q := by
  induction hp generalizing q with
  | nil =>
    cases hq
    rfl
  | @cons c x p t hc _ ih =>
    cases hq with
    | @cons d _ q _ hd hq =>
      obtain ⟨hczero, hpzero⟩ := List.forall_mem_cons.1 hpzero
      obtain ⟨hdzero, hqzero⟩ := List.forall_mem_cons.1 hqzero
      -- A zero stands for any digit, and no other digit is in a pattern.
      have heq : c = d := by
        by_cases hcz : c = .char '0' <;> by_cases hdz : d = .char '0'
        · rw [hcz, hdz]
        · rw [if_pos hcz] at hc
          rw [if_neg hdz] at hd
          exact absurd (hdzero (hd ▸ hc)) hdz
        · rw [if_neg hcz] at hc
          rw [if_pos hdz] at hd
          exact absurd (hczero (hc ▸ hd)) hcz
        · rw [if_neg hcz] at hc
          rw [if_neg hdz] at hd
          exact hc.symm.trans hd
      rw [heq, ih hq hpzero hqzero]

/-- What stands at a place of a text that has a pattern. -/
theorem LaidOut.getElem? {p t : Text} (h : LaidOut p t) {i : Nat} {c : CodePoint}
    (hc : p[i]? = some c) :
    ∃ d, t[i]? = some d ∧ if c = .char '0' then d.isDigit = true else d = c := by
  induction h generalizing i with
  | nil => cases hc
  | @cons _ x _ _ hx _ ih =>
    cases i with
    | zero =>
      obtain rfl := Option.some.inj hc
      exact ⟨x, rfl, hx⟩
    | succ i => exact ih hc

theorem LaidOut.mark {p t : Text} (h : LaidOut p t) {i : Nat} {c : CodePoint} (hc : p[i]? = some c)
    (hmark : c ≠ .char '0') : t[i]? = some c := by
  obtain ⟨d, hd, hzero⟩ := h.getElem? hc
  rw [if_neg hmark] at hzero
  rw [hd, hzero]

theorem LaidOut.visible {p t : Text} (h : LaidOut p t) (hp : Visible p) : Visible t := by
  induction h with
  | nil => exact visible_nil
  | @cons c x _ _ hx _ ih =>
    obtain ⟨hc, hp⟩ := visible_cons.1 hp
    refine visible_cons.2 ⟨?_, ih hp⟩
    split at hx
    · exact isBlank_of_isDigit hx
    · rw [hx, hc]

namespace DateLayout

theorem pattern_injective : Function.Injective pattern := by
  intro l m
  cases l <;> cases m <;> rename_i a b <;> revert a b <;> decide

theorem visible_pattern (l : DateLayout) : Visible l.pattern := by
  cases l <;> rename_i dashed <;> revert dashed <;> decide

theorem eq_zero_of_mem_pattern (l : DateLayout) :
    ∀ c ∈ l.pattern, c.isDigit = true → c = .char '0' := by
  cases l <;> rename_i dashed <;> revert dashed <;> decide

end DateLayout

/-! ## Nothing else in these layouts -/

theorem seven_le_dateLength (t : Text) : 7 ≤ dateLength t := by
  unfold dateLength
  simp only
  repeat' split
  all_goals omega

theorem readDateTime_eq_none {t : Text} (h : t.length ≤ dateLength t + 1) :
    readDateTime t = none := by
  have hzone : readZone [] = some ([], none) := rfl
  have hclock : readRawClock [] = none := rfl
  rw [readDateTime, List.drop_eq_nil_of_le h, hzone]
  cases readDate (t.take (dateLength t)) <;> simp [hclock]

section

variable {l : DateLayout} {t : Text}

/-- The two layouts that take more than eight characters have dashes, and are known by them. -/
theorem DateLayout.dateLength_of_long (h : LaidOut l.pattern t) :
    t.length ≤ 8 ∨ t[4]? = some (.char '-') ∧ dateLength t = 10 ∧ t.length = 10 := by
  have hlength : l.pattern.length = t.length := List.Forall₂.length_eq h
  have hshort : ∀ m ∈ [month false, week false, week true, weekday false],
      m.pattern.length ≤ 8 := by decide
  rcases l with dashed | dashed | dashed <;> cases dashed
  case month.true =>
    have hdash : t[4]? = some (.char '-') := h.mark rfl (by decide)
    obtain ⟨d, hd, hdigit⟩ := h.getElem? (i := 5) (c := .char '0') rfl
    rw [if_pos rfl] at hdigit
    have hletter : t[5]? ≠ some (.char 'W') := by
      rw [hd]
      rintro ⟨⟩
      cases hdigit
    exact .inr ⟨hdash, by rw [dateLength, if_pos hdash, if_neg hletter], hlength.symm⟩
  case weekday.true =>
    have hdash : t[4]? = some (.char '-') := h.mark rfl (by decide)
    have hletter : t[5]? = some (.char 'W') := h.mark rfl (by decide)
    have hsecond : t[8]? = some (.char '-') := h.mark rfl (by decide)
    have hend : t[10]? = none := List.getElem?_eq_none (Nat.le_of_eq hlength.symm)
    refine .inr ⟨hdash, ?_, hlength.symm⟩
    rw [dateLength, if_pos hdash, if_pos hletter, if_pos hsecond, hend]
    rfl
  all_goals exact .inl (hlength ▸ hshort _ (by decide))

theorem readDateTime_of_laidOut (h : LaidOut l.pattern t) : readDateTime t = none := by
  have hseven := seven_le_dateLength t
  rcases l.dateLength_of_long h with hshort | ⟨-, hten, hlength⟩
  · exact readDateTime_eq_none (by omega)
  · exact readDateTime_eq_none (by omega)

theorem readDay_of_laidOut (h : LaidOut l.pattern t) : readDay t = readDate t := by
  rw [readDay]
  cases readDate t with
  | some d => rfl
  | none =>
    -- Nothing stands behind the eighth character to be passed over.
    refine if_neg fun hover => ?_
    rcases l.dateLength_of_long h with hshort | ⟨hdash, -, -⟩
    · rw [List.drop_eq_nil_of_le hshort] at hover
      exact absurd hover.2 (by decide)
    · exact hover.1 hdash

/-- **A text in one of the six layouts** is read as the date that it spells in this layout, or it is
not read. -/
theorem Timestamp.parse_eq_ok_iff_of_laidOut (h : LaidOut l.pattern t) {x : Timestamp} :
    Timestamp.parse t = .ok x ↔ ∃ d, x = .date d ∧ l.told d = d ∧ t = l.spell d := by
  have hday : readTimestamp t = (readDate t).map .date := by
    rw [readTimestamp, readDay_of_laidOut h, readDateTime_of_laidOut h]
    cases readDate t <;> rfl
  rw [parse_eq_ok_iff, (h.visible l.visible_pattern).trim_eq, hday, Option.map_eq_some_iff]
  constructor
  · rintro ⟨d, hread, rfl⟩
    obtain ⟨m, htold, rfl⟩ := readDate_eq_some_iff.1 hread
    -- The date may be spelled in another layout, but then the text would have both patterns.
    obtain rfl : m = l := DateLayout.pattern_injective
      ((m.laidOut_spell d).unique h m.eq_zero_of_mem_pattern l.eq_zero_of_mem_pattern)
    exact ⟨d, rfl, htold, rfl⟩
  · rintro ⟨d, rfl, htold, rfl⟩
    exact ⟨d, readDate_eq_some_iff.2 ⟨l, htold, rfl⟩, rfl⟩

end

theorem DateLayout.parse_spell (l : DateLayout) (d : Date) :
    Timestamp.parse (l.spell d) = .ok (.date (l.told d)) := by
  obtain ⟨hspell, htold⟩ := l.spell_told d
  exact (Timestamp.parse_eq_ok_iff_of_laidOut (l.laidOut_spell d)).2
    ⟨l.told d, rfl, htold, hspell.symm⟩

end SearchQuery
