import Mathlib.Data.List.Lex
import SearchQuery.Proofs.Calendar
import SearchQuery.Proofs.Ranges

/-!
# Ranges are refused by instant, or by the clock of a region

A range is refused when it starts after it ends, and what counts is the time elapsed since the
calendar began, less the offset (`Timestamp.elapsed`): days are counted, not computed. Two ends of
one region are compared by their local times instead, whatever their offsets are.

**Theorem (`Fragment.range_fails_iff`).** A range fails exactly when its start is later than its end
in this sense, whatever the tag, the format and the exclusion, and with no other failure than one
that names the tag and both ends. Unless the ends are at two offsets of one region, this is the
order of the time elapsed. Between two dates it is the order of their texts.

That the order of the time elapsed decides for all ends fails where clocks are put back
(`range_renders_put_back`).

The instant of a timestamp is the elapsed time and one day, because the number of a date counts the
dates up to it (`instant_eq`). Texts are compared code point by code point: a numeral of fixed width
precedes another of its width when its number is less (`precedes_fixed_append`), so the texts of two
dates compare like their fields (`precedes_iso_append`).
-/

namespace SearchQuery

/-! ## Elapsed time and local time -/

namespace Timestamp

/-- The offset from UTC, where one is known. -/
def offset? : Timestamp → Option Offset
  | .date _ => none
  | .dateTime t => t.offset

/-- The number of the region that gives the offset. -/
def region? : Timestamp → Option Nat
  | .date _ => none
  | .dateTime t => t.offset.bind fun _ => t.region.map Region.serial

/-- Microseconds from the first midnight of the calendar to the local time. -/
noncomputable def localTime : Timestamp → Int
  | .date d => d.daysBefore * 86400000000
  | .dateTime t => t.date.daysBefore * 86400000000 + t.clock.micros

/-- Microseconds from the first midnight of the calendar to the local time, less the offset. -/
noncomputable def elapsed (t : Timestamp) : Int :=
  t.localTime - (t.offset?.map Offset.micros).getD 0

/-- Two timestamps whose offsets one region gives. -/
def OneRegion (t u : Timestamp) : Prop := t.region? ≠ none ∧ t.region? = u.region?

/-- Later by local time in one region, and by the time elapsed otherwise. -/
def Later (t u : Timestamp) : Prop :=
  t.OneRegion u ∧ u.localTime < t.localTime ∨ ¬ t.OneRegion u ∧ u.elapsed < t.elapsed

theorem localMicros_moment (t : Timestamp) :
    t.moment.localMicros = t.localTime + 86400000000 := by
  cases t with
  | date d =>
    simp only [moment, DateTime.localMicros, Clock.midnight, Clock.micros, Clock.seconds,
      Fin.val_zero, localTime, d.ordinal_eq]
    omega
  | dateTime t =>
    simp only [moment, DateTime.localMicros, DateTime.date_aware, DateTime.clock_aware, localTime,
      t.date.ordinal_eq]
    omega

theorem zone_moment (t : Timestamp) : t.moment.zone = t.offset?.getD .utc := by
  cases t with
  | date d => rfl
  | dateTime t => exact t.zone_aware

theorem micros_zone_moment (t : Timestamp) :
    t.moment.zone.micros = (t.offset?.map Offset.micros).getD 0 := by
  rw [zone_moment]
  cases t.offset? <;> rfl

theorem instant_eq (t : Timestamp) : t.instant = t.elapsed + 86400000000 := by
  rw [instant, DateTime.instant, localMicros_moment, micros_zone_moment, elapsed]
  omega

theorem instant_lt_iff {t u : Timestamp} : t.instant < u.instant ↔ t.elapsed < u.elapsed := by
  rw [instant_eq, instant_eq]
  omega

theorem localMicros_lt_iff {t u : Timestamp} :
    t.moment.localMicros < u.moment.localMicros ↔ t.localTime < u.localTime := by
  rw [localMicros_moment, localMicros_moment]
  omega

theorem region?_eq (t : Timestamp) : t.region? = t.moment.region.map Region.serial := by
  cases t with
  | date d => rfl
  | dateTime t =>
    rw [region?, moment, DateTime.aware]
    -- Without an offset the moment has no region either.
    cases hoffset : t.offset <;> simp

theorem together_moment_iff {t u : Timestamp} :
    t.moment.together u.moment = true ↔ t.OneRegion u := by
  rw [OneRegion, region?_eq, region?_eq, DateTime.together]
  cases t.moment.region <;> cases u.moment.region <;> simp

/-- **The order of timestamps**, by elapsed and local time. -/
theorem after_iff {t u : Timestamp} : t.after u = true ↔ t.Later u := by
  rw [after, DateTime.after, Later]
  by_cases h : t.OneRegion u
  · rw [if_pos (together_moment_iff.2 h)]
    simp [h, localMicros_lt_iff]
  · rw [if_neg (fun htogether => h (together_moment_iff.1 htogether))]
    simp [h, ← instant_lt_iff, instant]

theorem later_iff_of_not_oneRegion {t u : Timestamp} (h : ¬ t.OneRegion u) :
    t.Later u ↔ u.elapsed < t.elapsed := by
  simp [Later, h]

theorem later_iff_of_offset {t u : Timestamp} (h : t.offset? = u.offset?) :
    t.Later u ↔ u.elapsed < t.elapsed := by
  rw [Later, elapsed, elapsed, h]
  by_cases hregion : t.OneRegion u
  · simp [hregion]
  · simp [hregion]

end Timestamp

/-! ## The order of texts -/

/-- Whether a text comes before another, code point by code point. -/
def Precedes (t u : Text) : Prop := List.Lex (fun c d => c.toNat < d.toNat) t u

theorem not_precedes_self (t : Text) : ¬ Precedes t t :=
  List.lex_irrefl (fun c => Nat.lt_irrefl c.toNat) t

theorem precedes_cons {c d : CodePoint} {t u : Text} :
    Precedes (c :: t) (d :: u) ↔ c.toNat < d.toNat ∨ c = d ∧ Precedes t u :=
  List.cons_lex_cons_iff

theorem precedes_cons_self {c : CodePoint} {t u : Text} :
    Precedes (c :: t) (c :: u) ↔ Precedes t u := by
  simp [precedes_cons]

theorem toNat_digit (n : Nat) : (digit n).toNat = n % 10 + 48 := by
  have hvalue := digitValue_digit n
  have hrange := toNat_of_isDigit (isDigit_digit n)
  have hzero : '0'.toNat = 48 := rfl
  rw [digitValue, hzero] at hvalue
  omega

theorem digit_inj {m n : Nat} : digit m = digit n ↔ m % 10 = n % 10 := by
  constructor
  · intro h
    rw [← digitValue_digit m, h, digitValue_digit]
  · intro h
    rw [digit, digit, h]

/-- A number is less than another when its leading place is, or the places behind are. -/
theorem places_lt_iff {p a b r s : Nat} (hr : r < p) (hs : s < p) :
    a * p + r < b * p + s ↔ a < b ∨ a = b ∧ r < s := by
  rcases Nat.lt_trichotomy a b with h | rfl | h
  · have hle := Nat.mul_le_mul_right p (Nat.succ_le_of_lt h)
    rw [Nat.succ_mul] at hle
    exact iff_of_true (by omega) (.inl h)
  · omega
  · have hle := Nat.mul_le_mul_right p (Nat.succ_le_of_lt h)
    rw [Nat.succ_mul] at hle
    exact iff_of_false (by omega) (by omega)

theorem places_eq_iff {p a b r s : Nat} (hr : r < p) (hs : s < p) :
    a * p + r = b * p + s ↔ a = b ∧ r = s := by
  have hlt := places_lt_iff (a := a) (b := b) hr hs
  have hgt := places_lt_iff (a := b) (b := a) hs hr
  omega

/-- The last places of two numbers, one after the other, compare like the numbers they are. -/
theorem precedes_places_append (width m n : Nat) {t u : Text} :
    Precedes (fixed width m ++ t) (fixed width n ++ u) ↔
      m % Nat.pow 10 width < n % Nat.pow 10 width ∨
        m % Nat.pow 10 width = n % Nat.pow 10 width ∧ Precedes t u := by
  induction width with
  | zero => simp [fixed, Nat.mod_one]
  | succ width ih =>
    have hpos : 0 < Nat.pow 10 width := Nat.pow_pos (by decide)
    have hm := places_succ 0 width m
    have hn := places_succ 0 width n
    rw [Nat.zero_mul, Nat.zero_mul, Nat.zero_add, Nat.zero_add] at hm hn
    rw [hm, hn, places_lt_iff (Nat.mod_lt _ hpos) (Nat.mod_lt _ hpos),
      places_eq_iff (Nat.mod_lt _ hpos) (Nat.mod_lt _ hpos)]
    simp only [fixed, List.cons_append, precedes_cons, ih, toNat_digit, digit_inj,
      Nat.add_lt_add_iff_right]
    tauto

theorem precedes_fixed_append {width m n : Nat} (hm : m < Nat.pow 10 width)
    (hn : n < Nat.pow 10 width) {t u : Text} :
    Precedes (fixed width m ++ t) (fixed width n ++ u) ↔ m < n ∨ m = n ∧ Precedes t u := by
  rw [precedes_places_append, Nat.mod_eq_of_lt hm, Nat.mod_eq_of_lt hn]

/-- **The texts of dates are in the order of the dates.** -/
theorem precedes_iso_append {d e : Date} {t u : Text} :
    Precedes (d.iso ++ t) (e.iso ++ u) ↔ d.Before e ∨ d = e ∧ Precedes t u := by
  have heq : d = e ↔ d.year = e.year ∧ d.month = e.month ∧ d.day = e.day :=
    ⟨fun h => h ▸ ⟨rfl, rfl, rfl⟩, fun h => Date.eq_of_fields h.1 h.2.1 h.2.2⟩
  have hyear : ∀ d : Date, d.year < Nat.pow 10 4 := Date.year_lt
  have hmonth : ∀ d : Date, d.month < Nat.pow 10 2 := Date.month_lt
  have hday : ∀ d : Date, d.day < Nat.pow 10 2 := Date.day_lt
  simp only [Date.iso, List.append_assoc, List.cons_append, precedes_cons_self,
    precedes_fixed_append (hyear d) (hyear e), precedes_fixed_append (hmonth d) (hmonth e),
    precedes_fixed_append (hday d) (hday e), Date.Before, heq]
  tauto

theorem precedes_write_date {f : DateFormat} {d e : Date} :
    Precedes (f.write (.date d)) (f.write (.date e)) ↔ d.Before e := by
  have hwrite : ∃ rest, ∀ d : Date, f.write (.date d) = d.iso ++ rest := by
    cases f with
    | date => exact ⟨[], fun d => (List.append_nil _).symm⟩
    | timezoned =>
      exact ⟨.char 'T' :: (Clock.midnight.isoSeconds ++ DateFormat.zone .utc),
        fun d => DateFormat.write_timezoned (.date d)⟩
  obtain ⟨rest, hrest⟩ := hwrite
  rw [hrest, hrest, precedes_iso_append]
  exact ⟨fun h => h.resolve_right fun h => not_precedes_self _ h.2, .inl⟩

/-! ## Ranges -/

namespace Fragment

theorem render_range_eq_error_iff {tag : Text} {format : DateFormat} {start finish : Timestamp}
    {excluded : Bool} {e : RenderError} :
    (Fragment.mk (.range tag format start finish) excluded).render = .error e ↔
      start.Later finish ∧ e = .query (.invertedPeriod tag start finish) := by
  rw [render_range, ← Timestamp.after_iff]
  split
  · rename_i h
    simp [h, eq_comm]
  · rename_i h
    simp [h]

theorem later_date_iff {d e : Date} :
    (Timestamp.date d).Later (Timestamp.date e) ↔ e.Before d := by
  have hoffset : (Timestamp.date d).offset? = (Timestamp.date e).offset? := rfl
  rw [Timestamp.later_iff_of_offset hoffset, ← Timestamp.instant_lt_iff, ← Date.ordinal_lt_iff,
    Timestamp.instant_eq, Timestamp.instant_eq, d.ordinal_eq, e.ordinal_eq]
  simp only [Timestamp.elapsed, Timestamp.localTime, hoffset]
  omega

/-- **A range fails** exactly when it starts later than it ends. -/
theorem range_fails_iff (tag : Text) (start finish : Timestamp) :
    (∀ format excluded e,
      (Fragment.mk (.range tag format start finish) excluded).render = .error e ↔
        start.Later finish ∧ e = .query (.invertedPeriod tag start finish)) ∧
    (¬ start.OneRegion finish ∨ start.offset? = finish.offset? →
      (start.Later finish ↔ finish.elapsed < start.elapsed)) ∧
    ∀ (d e : Date) format excluded,
      (∃ error, (Fragment.mk (.range tag format (.date d) (.date e)) excluded).render =
          .error error) ↔
        Precedes (format.write (.date e)) (format.write (.date d)) := by
  refine ⟨fun _ _ _ => render_range_eq_error_iff, ?_, ?_⟩
  · rintro (h | h)
    · exact Timestamp.later_iff_of_not_oneRegion h
    · exact Timestamp.later_iff_of_offset h
  · intro d e format excluded
    simp only [render_range_eq_error_iff, precedes_write_date, later_date_iff]
    exact ⟨fun ⟨_, h, _⟩ => h, fun h => ⟨_, h, rfl⟩⟩

/-- An hour ahead of UTC, the first midnight of the calendar is before the calendar begins. -/
theorem range_fails_before_calendar :
    let first : Date := (Date.of? 1 1 1).get rfl
    let ahead : Timestamp := .dateTime ⟨first, .midnight, some ⟨3600000000, by decide⟩, none⟩
    let inverted := QueryError.invertedPeriod "closed".text (.date first) ahead
    ¬ (Timestamp.date first).OneRegion ahead ∧ ahead.elapsed < (Timestamp.date first).elapsed ∧
      (Fragment.mk (.range "closed".text .date (.date first) ahead) true).render =
        .error (.query inverted) := by
  intro first ahead inverted
  have hregion : ¬ (Timestamp.date first).OneRegion ahead := fun h => h.1 rfl
  have helapsed : ahead.elapsed < (Timestamp.date first).elapsed :=
    Timestamp.instant_lt_iff.1 (by decide)
  obtain ⟨fails, order, -⟩ := range_fails_iff "closed".text (.date first) ahead
  exact ⟨hregion, helapsed, (fails .date true _).2 ⟨(order (.inl hregion)).2 helapsed, rfl⟩⟩

/-- The clocks of a region are put back an hour at two o'clock. From the second half past one to the
first quarter to two it is three quarters of an hour back, and the range renders. -/
theorem range_renders_put_back :
    let day : Date := (Date.of? 2024 11 3).get rfl
    let ahead : Offset := ⟨-14400000000, by decide⟩
    let behind : Offset := ⟨-18000000000, by decide⟩
    let start : Timestamp := .dateTime ⟨day, ⟨1, 30, 0, 0⟩, some behind, some ⟨0, some ahead⟩⟩
    let finish : Timestamp := .dateTime ⟨day, ⟨1, 45, 0, 0⟩, some ahead, some ⟨0, some behind⟩⟩
    finish.elapsed < start.elapsed ∧
      (Fragment.mk (.range "created".text .date start finish) false).render =
        .ok "created:2024-11-03..2024-11-03".text := by
  intro day ahead behind start finish
  refine ⟨Timestamp.instant_lt_iff.1 (by decide), ?_⟩
  -- The order is that of the local times, half past one and a quarter to two.
  have hnot : ¬ start.after finish = true := by decide
  have hshown : ∀ t : Timestamp, t.day = day → DateFormat.date.write t = "2024-11-03".text := by
    intro t ht
    rw [DateFormat.write, ht]
    decide
  rw [render_range, if_neg hnot, hshown start rfl, hshown finish rfl]
  rfl

end Fragment

end SearchQuery
