import SearchQuery.DateFormat
import SearchQuery.Proofs.Text
import SearchQuery.Timestamp.Reader

/-!
# Written timestamps are read back

**Theorem (`DateFormat.parse_write`).** What a format writes for a timestamp is read as what the
format shows of it: the local calendar day, or the date and the time to the second with the offset.

The reader is followed part by part. A date reads back where nothing follows it and is refused
where something does (`readDate_iso_append`), so the reader goes on to a date with a time. A time
reads back from its numerals (`readRawClock_seconds`). A zone starts at the first sign, and neither
a time nor the size of an offset has one (`readZone_iso`).
-/

namespace SearchQuery

/-- Months, days and the parts of a time have two places. -/
theorem readFixed_two {n : Nat} (h : n < 100) (rest : Text) :
    readFixed 2 (fixed 2 n ++ rest) = some (n, rest) :=
  readFixed_fixed (show n < Nat.pow 10 2 from h) rest

/-! ## Dates -/

theorem daysInMonth_le (year month : Nat) : daysInMonth year month ≤ 31 := by
  have hall : ∀ length ∈ monthLengths year, length ≤ 31 := by
    simp only [monthLengths, List.forall_mem_cons]
    split <;> simp
  unfold daysInMonth
  split
  · omega
  · rw [List.getD_eq_getElem?_getD]
    cases h : (monthLengths year)[month - 1]? with
    | none => simp
    | some length => exact hall _ (List.mem_of_getElem? h)

namespace Date

theorem month_le (d : Date) : d.month ≤ 12 := by
  have h := Nat.le_trans d.day_pos d.day_le
  apply Nat.le_of_not_lt
  intro hm
  have hlength : (monthLengths d.year).length ≤ d.month - 1 := by
    change 12 ≤ d.month - 1
    omega
  rw [daysInMonth, if_neg (by omega), List.getD_eq_getElem?_getD,
    List.getElem?_eq_none hlength] at h
  simp at h

theorem month_lt (d : Date) : d.month < 100 := Nat.lt_of_le_of_lt d.month_le (by decide)

theorem day_lt (d : Date) : d.day < 100 :=
  Nat.lt_of_le_of_lt (Nat.le_trans d.day_le (daysInMonth_le _ _)) (by decide)

theorem year_lt (d : Date) : d.year < 10000 := Nat.lt_of_le_of_lt d.year_le (by decide)

@[simp] theorem length_iso (d : Date) : d.iso.length = 10 := by simp [iso]

@[simp] theorem visible_iso (d : Date) : Visible d.iso := by
  have hdash : isBlank (.char '-') = false := rfl
  simp [iso, hdash]

end Date

theorem digit_ne {c : CodePoint} (h : c.isDigit = false) (n : Nat) : digit n ≠ c := by
  intro hd
  rw [← hd, isDigit_digit] at h
  exact Bool.noConfusion h

/-- A month date reads back where nothing follows it, and nowhere else. -/
theorem readMonthDate_append (d : Date) (rest : Text) :
    readMonthDate true d.year (fixed 2 d.month ++ .char '-' :: (fixed 2 d.day ++ rest)) =
      if rest = [] then some d else none := by
  rw [readMonthDate, readFixed_two d.month_lt]
  simp only [Option.bind_eq_bind, Option.bind_some, if_true, readFixed_two d.day_lt]
  cases rest with
  | nil => exact d.of?_self
  | cons c r => rfl

theorem readDate_iso_append (d : Date) (rest : Text) :
    readDate (d.iso ++ rest) = if rest = [] then some d else none := by
  have hiso : d.iso ++ rest =
      fixed 4 d.year ++ .char '-' :: (fixed 2 d.month ++ .char '-' :: (fixed 2 d.day ++ rest)) := by
    simp [Date.iso]
  rw [← readMonthDate_append, hiso, readDate, readFixed_fixed d.year_lt]
  simp only [Option.bind_eq_bind, Option.bind_some]
  -- A digit follows the dash behind the year, so this is neither a week nor a date without dashes.
  split
  · rename_i r h
    exact absurd (List.cons.inj (List.cons.inj h).2).1 (digit_ne rfl _)
  · rename_i r _ h
    rw [(List.cons.inj h).2]
  · rename_i h
    exact absurd (List.cons.inj h).1 (by decide)
  · rename_i _ h _
    exact absurd rfl (h _)

theorem readDate_iso (d : Date) : readDate d.iso = some d := by
  simpa using readDate_iso_append d []

/-- A date with something behind it is no date. -/
theorem readDay_iso_cons (d : Date) (c : CodePoint) (rest : Text) :
    readDay (d.iso ++ c :: rest) = none := by
  rw [readDay, readDate_iso_append, if_neg (List.cons_ne_nil _ _)]
  exact if_neg fun h => h.1 (by simp [Date.iso, fixed])

/-! ## Times -/

/-- A time to the second, and what follows it. -/
theorem readRawClock_seconds {hour minute second : Nat} (hh : hour < 100) (hm : minute < 100)
    (hs : second < 100) (places : Text) :
    readRawClock (fixed 2 hour ++ .char ':' :: (fixed 2 minute ++ .char ':' ::
      (fixed 2 second ++ places))) =
    (readPlaces places).map fun micro => ⟨hour, minute, second, micro⟩ := by
  rw [readRawClock, readFixed_two hh]
  simp [skipColon, readFixed_two hm, readFixed_two hs]
  cases readPlaces places <;> rfl

theorem readRawClock_minutes {hour minute : Nat} (hh : hour < 100) (hm : minute < 100) :
    readRawClock (fixed 2 hour ++ .char ':' :: fixed 2 minute) = some ⟨hour, minute, 0, 0⟩ := by
  have h := readFixed_two hm []
  rw [List.append_nil] at h
  rw [readRawClock, readFixed_two hh]
  simp [skipColon, h]

theorem readPlaces_fixed {micro : Nat} (h : micro < 1000000) :
    readPlaces (.char '.' :: fixed 6 micro) = some micro := by
  have hdigits : (fixed 6 micro).all CodePoint.isDigit = true :=
    List.all_eq_true.2 fun c hc => isDigit_of_mem_fixed hc
  have hne : fixed 6 micro ≠ [] := List.cons_ne_nil _ _
  have hmicros : microsOfPlaces (fixed 6 micro) = micro := by
    rw [microsOfPlaces, List.take_left' (length_fixed _ _), ofDigits_fixed h]
  rw [readPlaces, if_pos ⟨.inl rfl, hne, hdigits⟩, hmicros]

namespace Clock

theorem hour_lt (c : Clock) : c.hour.val < 100 := Nat.lt_of_lt_of_le c.hour.isLt (by decide)

theorem minute_lt (c : Clock) : c.minute.val < 100 :=
  Nat.lt_of_lt_of_le c.minute.isLt (by decide)

theorem second_lt (c : Clock) : c.second.val < 100 :=
  Nat.lt_of_lt_of_le c.second.isLt (by decide)

theorem readRawClock_isoSeconds (c : Clock) :
    readRawClock c.isoSeconds = some ⟨c.hour, c.minute, c.second, 0⟩ := by
  have h := readRawClock_seconds c.hour_lt c.minute_lt c.second_lt []
  simpa [isoSeconds, readPlaces] using h

/-- A character that is neither a digit nor a colon is not in a time to the second. -/
theorem not_mem_isoSeconds {x : CodePoint} (hd : x.isDigit = false) (hc : x ≠ .char ':')
    (c : Clock) : x ∉ c.isoSeconds := by
  simp [isoSeconds, not_mem_fixed hd, hc]

@[simp] theorem visible_isoSeconds (c : Clock) : Visible c.isoSeconds := by
  have hcolon : isBlank (.char ':') = false := rfl
  simp [isoSeconds, hcolon]

end Clock

/-! ## Zones -/

namespace Offset

/-- The size of an offset as it is written behind its sign. -/
def sizeText (o : Offset) : Text :=
  fixed 2 (o.micros.natAbs / 1000000 / 3600) ++ .char ':' ::
    (fixed 2 (o.micros.natAbs / 1000000 / 60 % 60) ++
      (if o.micros.natAbs / 1000000 % 60 = 0 ∧ o.micros.natAbs % 1000000 = 0 then []
        else .char ':' :: (fixed 2 (o.micros.natAbs / 1000000 % 60) ++
          (if o.micros.natAbs % 1000000 = 0 then []
            else .char '.' :: fixed 6 (o.micros.natAbs % 1000000)))))

theorem iso_eq (o : Offset) :
    o.iso = .char (if o.micros < 0 then '-' else '+') :: o.sizeText := by
  simp [iso, sizeText]

/-- The size of an offset reads back. -/
theorem readRawClock_sizeText (o : Offset) :
    ∃ raw, readRawClock o.sizeText = some raw ∧ raw.micros = o.micros.natAbs := by
  have hb := o.bounded
  generalize hn : o.micros.natAbs = n at hb
  have hh : n / 1000000 / 3600 < 100 := by omega
  have hm : n / 1000000 / 60 % 60 < 100 := by omega
  have hs : n / 1000000 % 60 < 100 := by omega
  have hp : n % 1000000 < 1000000 := by omega
  rw [sizeText, hn]
  -- Seconds and microseconds are left out when they are zero.
  split
  · rw [List.append_nil, readRawClock_minutes hh hm]
    refine ⟨_, rfl, ?_⟩
    simp only [RawClock.micros]
    omega
  · rw [readRawClock_seconds hh hm hs]
    split
    · refine ⟨_, rfl, ?_⟩
      simp only [RawClock.micros]
      omega
    · rw [readPlaces_fixed hp]
      refine ⟨_, rfl, ?_⟩
      simp only [RawClock.micros]
      omega

theorem readOffset_sizeText (o : Offset) :
    readOffset (decide (o.micros < 0)) o.sizeText = some o := by
  obtain ⟨raw, hr, hm⟩ := o.readRawClock_sizeText
  have hsigned : (if decide (o.micros < 0) then -(raw.micros : Int) else raw.micros) = o.micros := by
    rw [hm]
    by_cases h : o.micros < 0
    · rw [if_pos (decide_eq_true h)]
      omega
    · rw [if_neg (by simpa using h)]
      omega
  rw [readOffset, hr]
  simp only [Option.bind_eq_bind, Option.bind_some, hsigned, of?_self]

/-- A character that is neither a digit nor a colon nor a dot is not in the size of an offset. -/
theorem not_mem_sizeText {x : CodePoint} (hd : x.isDigit = false) (hc : x ≠ .char ':')
    (hp : x ≠ .char '.') (o : Offset) : x ∉ o.sizeText := by
  unfold sizeText
  split
  · simp [not_mem_fixed hd, hc]
  · split <;> simp [not_mem_fixed hd, hc, hp]

theorem visible_sizeText (o : Offset) : Visible o.sizeText := by
  have hcolon : isBlank (.char ':') = false := rfl
  have hdot : isBlank (.char '.') = false := rfl
  unfold sizeText
  split
  · simp [hcolon]
  · split <;> simp [hcolon, hdot]

theorem visible_iso (o : Offset) : Visible o.iso := by
  have hsign : isBlank (.char (if o.micros < 0 then '-' else '+')) = false := by
    split <;> decide
  rw [o.iso_eq, visible_cons]
  exact ⟨hsign, o.visible_sizeText⟩

/-- The places of an offset have one dot, with a digit behind it. -/
theorem cutsBehind_sizeText (o : Offset) : CutsBehind o.sizeText := by
  have hdot : ∀ width n, .char '.' ∉ fixed width n := not_mem_fixed rfl
  have hcolon : CodePoint.char ':' ≠ .char '.' := by decide
  refine CutsBehind.append (hdot _ _) (CutsBehind.cons hcolon (CutsBehind.append (hdot _ _) ?_))
  split
  · exact cutsBehind_nil
  · refine CutsBehind.cons hcolon (CutsBehind.append (hdot _ _) ?_)
    split
    · exact cutsBehind_nil
    · exact CutsBehind.dot (digit_ne rfl _) (cutsBehind_of_not_mem (hdot 6 _))

end Offset

/-- A time and an offset are parted at the sign of the offset. -/
theorem readZone_iso {time : Text} (hm : .char '-' ∉ time) (hp : .char '+' ∉ time) (o : Offset) :
    readZone (time ++ o.iso) = some (time, some o) := by
  have hr := o.readOffset_sizeText
  rw [o.iso_eq, readZone]
  by_cases hn : o.micros < 0
  · rw [decide_eq_true hn] at hr
    rw [if_pos hn, cutAt_append hm]
    simp only [hr, Option.map_some]
  · have hminus : .char '-' ∉ time ++ .char '+' :: o.sizeText := by
      simp [hm, Offset.not_mem_sizeText (x := .char '-') rfl (by decide) (by decide) o]
    rw [decide_eq_false hn] at hr
    rw [if_neg hn, cutAt_eq_none_iff.2 hminus, cutAt_append hp]
    simp only [hr, Option.map_some]

theorem readZone_utc {time : Text} (hm : .char '-' ∉ time) (hp : .char '+' ∉ time)
    (hz : .char 'Z' ∉ time) : readZone (time ++ [.char 'Z']) = some (time, some .utc) := by
  have hminus : .char '-' ∉ time ++ [.char 'Z'] := by simp [hm]
  have hplus : .char '+' ∉ time ++ [.char 'Z'] := by simp [hp]
  rw [readZone, cutAt_eq_none_iff.2 hminus, cutAt_eq_none_iff.2 hplus, cutAt_append hz]

/-! ## Dates with a time -/

theorem dateLength_iso (d : Date) (c : CodePoint) (rest : Text) :
    dateLength (d.iso ++ c :: rest) = 10 := by
  have hdash : (d.iso ++ c :: rest)[4]? = some (.char '-') := by simp [Date.iso, fixed]
  have hmonth : (d.iso ++ c :: rest)[5]? ≠ some (.char 'W') := by
    have hd := digit_ne (c := .char 'W') rfl (d.month / 10)
    simpa [Date.iso, fixed] using hd
  rw [dateLength, if_pos hdash, if_neg hmonth]

theorem readDateTime_iso (d : Date) {sep : CodePoint} {rest time : Text} {o : Option Offset}
    {raw : RawClock} {c : Clock} (hz : readZone rest = some (time, o))
    (hr : readRawClock time = some raw)
    (hc : Clock.of? raw.hour raw.minute raw.second raw.micro = some c) :
    readDateTime (d.iso ++ sep :: rest) = some ⟨d, c, o, none⟩ := by
  have htake : (d.iso ++ sep :: rest).take 10 = d.iso := List.take_left' d.length_iso
  have hdrop : (d.iso ++ sep :: rest).drop (10 + 1) = rest := by
    rw [← List.drop_drop, List.drop_left' d.length_iso]
    rfl
  rw [readDateTime, dateLength_iso, htake, hdrop, readDate_iso]
  simp [hz, hr, hc]

/-! ## What a format writes -/

namespace DateFormat

/-- What a format shows of a timestamp: its day, or its fields to the second and its offset. -/
def shown : DateFormat → Timestamp → Timestamp
  | .date, t => .date t.day
  | .timezoned, t =>
    .dateTime ⟨t.moment.date, t.moment.clock.wholeSeconds, some t.moment.zone, none⟩

theorem readZone_zone {time : Text} (hm : .char '-' ∉ time) (hp : .char '+' ∉ time)
    (hz : .char 'Z' ∉ time) (o : Offset) : readZone (time ++ zone o) = some (time, some o) := by
  rw [zone]
  by_cases h : o.micros = 0
  · rw [if_pos h]
    obtain ⟨micros, hb⟩ := o
    obtain rfl : micros = 0 := h
    exact readZone_utc hm hp hz
  · rw [if_neg h]
    exact readZone_iso hm hp o

theorem visible_zone (o : Offset) : Visible (zone o) := by
  have hz : isBlank (.char 'Z') = false := rfl
  unfold zone
  split
  · simp [hz]
  · exact o.visible_iso

theorem cutsBehind_zone (o : Offset) : CutsBehind (zone o) := by
  have hsign : CodePoint.char (if o.micros < 0 then '-' else '+') ≠ .char '.' := by
    split <;> decide
  unfold zone
  split
  · exact cutsBehind_of_not_mem (by decide)
  · rw [o.iso_eq]
    exact o.cutsBehind_sizeText.cons hsign

theorem write_timezoned (t : Timestamp) :
    timezoned.write t = t.moment.date.iso ++ .char 'T' ::
      (t.moment.clock.isoSeconds ++ zone t.moment.zone) := by
  simp [write]

theorem visible_write (f : DateFormat) (t : Timestamp) : Visible (f.write t) := by
  cases f with
  | date => exact t.day.visible_iso
  | timezoned =>
    have ht : isBlank (.char 'T') = false := rfl
    simp [write_timezoned, ht, visible_zone]

/-- Two dots behind a written timestamp end it. -/
theorem cutsBehind_write (f : DateFormat) (t : Timestamp) : CutsBehind (f.write t) := by
  have hdate : ∀ d : Date, .char '.' ∉ d.iso := by
    intro d
    simp [Date.iso, not_mem_fixed (c := .char '.') rfl]
  cases f with
  | date => exact cutsBehind_of_not_mem (hdate _)
  | timezoned =>
    rw [write_timezoned]
    refine CutsBehind.append (hdate _) (CutsBehind.cons (by decide) (CutsBehind.append ?_ ?_))
    · exact Clock.not_mem_isoSeconds rfl (by decide) _
    · exact cutsBehind_zone _

/-- **What a format writes is read as what it shows.** -/
theorem parse_write (f : DateFormat) (t : Timestamp) :
    Timestamp.parse (f.write t) = .ok (f.shown t) := by
  rw [Timestamp.parse, (f.visible_write t).trim_eq]
  cases f with
  | date =>
    have hr : readTimestamp (date.write t) = some (.date t.day) := by
      rw [readTimestamp, write, readDay_of_readDate (readDate_iso t.day)]
    rw [hr]
    rfl
  | timezoned =>
    have hz : readZone (t.moment.clock.isoSeconds ++ zone t.moment.zone) =
        some (t.moment.clock.isoSeconds, some t.moment.zone) :=
      readZone_zone (Clock.not_mem_isoSeconds rfl (by decide) _)
        (Clock.not_mem_isoSeconds rfl (by decide) _)
        (Clock.not_mem_isoSeconds rfl (by decide) _) _
    have hc : Clock.of? t.moment.clock.hour t.moment.clock.minute t.moment.clock.second 0 =
        some t.moment.clock.wholeSeconds := t.moment.clock.wholeSeconds.of?_self
    have hr : readTimestamp (timezoned.write t) = some (.dateTime
        ⟨t.moment.date, t.moment.clock.wholeSeconds, some t.moment.zone, none⟩) := by
      rw [write_timezoned, readTimestamp, readDay_iso_cons,
        readDateTime_iso t.moment.date hz t.moment.clock.readRawClock_isoSeconds hc]
      rfl
    rw [hr]
    rfl

/-! ## Instants of what is shown -/

theorem instant_shown_date (t : Timestamp) :
    (date.shown t).instant = (t.day.ordinal * 86400000000 : Nat) := by
  simp [shown, Timestamp.instant, Timestamp.moment, DateTime.instant, DateTime.localMicros,
    DateTime.zone, Clock.midnight, Clock.micros, Clock.seconds, Offset.utc]

theorem instant_shown_timezoned (t : Timestamp) :
    (timezoned.shown t).instant = t.instant - t.moment.clock.micro.val := by
  have h : ∀ u : DateTime, DateTime.instant ⟨u.date, u.clock.wholeSeconds, some u.zone, none⟩ =
      u.instant - u.clock.micro.val := by
    intro u
    simp only [DateTime.instant, DateTime.localMicros, DateTime.zone, Clock.micros, Clock.seconds,
      Clock.wholeSeconds, Fin.val_zero, Option.getD_some]
    omega
  exact h t.moment

end DateFormat

end SearchQuery
