import SearchQuery.Proofs.Text
import SearchQuery.Timestamp.Reader

/-!
# What a timestamp looks like

A text that reads as a timestamp starts with a digit, and its dots stand apart: the one that may
part a date from a time has a digit behind it, and so has the one in front of the parts of a second.

There is one exception. Behind a day without dashes the reader passes over two bytes, and these may
be two dots (`Overrun`). **Theorem (`parse_dots_iff`).** No other text with two dots in a row is
read.

The reader is followed part by part, as in the other direction. A date has no dots
(`not_mem_of_readDate`), and digits in front of a text change nothing about its dots
(`dotsApart_of_readFixed`).
-/

namespace SearchQuery

/-! ## Numerals -/

theorem digits_of_readFixedFrom {width value n : Nat} {t rest : Text}
    (h : readFixedFrom width value t = some (n, rest)) :
    ∃ digits : Text, t = digits ++ rest ∧ ∀ c ∈ digits, c.isDigit = true := by
  induction width generalizing value t with
  | zero =>
    obtain ⟨-, rfl⟩ := Prod.mk.inj (Option.some.inj h)
    exact ⟨[], rfl, fun c hc => absurd hc List.not_mem_nil⟩
  | succ width ih =>
    cases t with
    | nil => cases h
    | cons c r =>
      rw [readFixedFrom] at h
      split at h
      · rename_i hc
        obtain ⟨digits, rfl, hdigits⟩ := ih h
        exact ⟨c :: digits, rfl, List.forall_mem_cons.2 ⟨hc, hdigits⟩⟩
      · cases h

theorem digits_of_readFixed {width n : Nat} {t rest : Text} (h : readFixed width t = some (n, rest)) :
    ∃ digits : Text, t = digits ++ rest ∧ ∀ c ∈ digits, c.isDigit = true :=
  digits_of_readFixedFrom h

theorem dot_not_digits {digits : Text} (h : ∀ c ∈ digits, c.isDigit = true) :
    .char '.' ∉ digits := fun hdot => Bool.noConfusion (h _ hdot)

theorem not_mem_of_readFixed {width n : Nat} {t rest : Text}
    (h : readFixed width t = some (n, rest)) (hrest : .char '.' ∉ rest) : .char '.' ∉ t := by
  obtain ⟨digits, rfl, hdigits⟩ := digits_of_readFixed h
  simp [dot_not_digits hdigits, hrest]

theorem dotsApart_of_readFixed {width n : Nat} {t rest : Text}
    (h : readFixed width t = some (n, rest)) (hrest : DotsApart rest) : DotsApart t := by
  obtain ⟨digits, rfl, hdigits⟩ := digits_of_readFixed h
  exact (dotsApart_append_left (dot_not_digits hdigits)).2 hrest

/-- A text that starts with a digit. -/
def StartsWithDigit (t : Text) : Prop := ∃ c r, t = c :: r ∧ c.isDigit = true

theorem startsWithDigit_of_readFixed {width n : Nat} {t rest : Text}
    (h : readFixed (width + 1) t = some (n, rest)) : StartsWithDigit t := by
  cases t with
  | nil => cases h
  | cons c r =>
    rw [readFixed, readFixedFrom] at h
    split at h
    · rename_i hc
      exact ⟨c, r, rfl, hc⟩
    · cases h

theorem StartsWithDigit.head_ne {t : Text} (h : StartsWithDigit t) {c : CodePoint}
    (hc : c.isDigit = false) : t.head? ≠ some c := by
  obtain ⟨d, r, rfl, hd⟩ := h
  rintro ⟨⟩
  exact Bool.noConfusion (hd.symm.trans hc)

theorem StartsWithDigit.append {t : Text} (h : StartsWithDigit t) (u : Text) :
    StartsWithDigit (t ++ u) := by
  obtain ⟨c, r, rfl, hc⟩ := h
  exact ⟨c, r ++ u, rfl, hc⟩

/-! ## Dates -/

/-- What stands behind the dash that is due, or the text itself where none is. -/
theorem not_mem_behind_dash {dashed : Bool} {t u : Text}
    (h : (if dashed then match t with
        | .char '-' :: r => some r
        | _ => none
      else some t) = some u) (hu : .char '.' ∉ u) : .char '.' ∉ t := by
  cases dashed with
  | false =>
    obtain rfl := Option.some.inj h
    exact hu
  | true =>
    rw [if_pos rfl] at h
    split at h
    · obtain rfl := Option.some.inj h
      simp [hu]
    · cases h

theorem not_mem_of_readWeekday {dashed : Bool} {t : Text} {day : Nat}
    (h : readWeekday dashed t = some day) : .char '.' ∉ t := by
  cases t with
  | nil => exact List.not_mem_nil
  | cons c r =>
    unfold readWeekday at h
    simp only at h
    split at h
    · rename_i hread
      obtain ⟨u, hdash, hdigit⟩ := Option.bind_eq_some_iff.1 hread
      exact not_mem_behind_dash hdash (not_mem_of_readFixed hdigit List.not_mem_nil)
    · cases h

theorem not_mem_of_readWeekDate {dashed : Bool} {year : Nat} {t : Text} {d : Date}
    (h : readWeekDate dashed year t = some d) : .char '.' ∉ t := by
  obtain ⟨⟨week, rest⟩, hweek, h⟩ := Option.bind_eq_some_iff.1 h
  obtain ⟨day, hday, -⟩ := Option.bind_eq_some_iff.1 h
  exact not_mem_of_readFixed hweek (not_mem_of_readWeekday hday)

theorem not_mem_of_readLast {width : Nat} {t : Text} {f : Nat → Option Date} {d : Date}
    (h : (do match ← readFixed width t with
        | (n, []) => f n
        | _ => none) = some d) : .char '.' ∉ t := by
  obtain ⟨⟨n, rest⟩, hread, h⟩ := Option.bind_eq_some_iff.1 h
  cases rest with
  | nil => exact not_mem_of_readFixed hread List.not_mem_nil
  | cons c r => cases h

theorem readLast_eq_some_iff {width : Nat} {t : Text} {f : Nat → Option Date} {d : Date} :
    (do match ← readFixed width t with
        | (n, []) => f n
        | _ => none) = some d ↔ ∃ n, readFixed width t = some (n, []) ∧ f n = some d := by
  refine Option.bind_eq_some_iff.trans ⟨?_, fun ⟨n, hread, hn⟩ => ⟨(n, []), hread, hn⟩⟩
  rintro ⟨⟨n, rest⟩, hread, hn⟩
  cases rest with
  | nil => exact ⟨n, hread, hn⟩
  | cons c r => cases hn

theorem not_mem_of_readMonthDate {dashed : Bool} {year : Nat} {t : Text} {d : Date}
    (h : readMonthDate dashed year t = some d) : .char '.' ∉ t := by
  obtain ⟨⟨month, rest⟩, hmonth, h⟩ := Option.bind_eq_some_iff.1 h
  refine not_mem_of_readFixed hmonth ?_
  cases dashed with
  | false => exact not_mem_of_readLast h
  | true =>
    simp only [if_true] at h
    split at h
    · simp [not_mem_of_readLast h]
    · cases h

/-- A date starts with a digit and has no dots. -/
theorem startsWithDigit_of_readDate {t : Text} {d : Date} (h : readDate t = some d) :
    StartsWithDigit t := by
  obtain ⟨⟨year, rest⟩, hyear, -⟩ := Option.bind_eq_some_iff.1 h
  exact startsWithDigit_of_readFixed hyear

theorem not_mem_of_readDate {t : Text} {d : Date} (h : readDate t = some d) : .char '.' ∉ t := by
  obtain ⟨⟨year, rest⟩, hyear, h⟩ := Option.bind_eq_some_iff.1 h
  refine not_mem_of_readFixed hyear ?_
  simp only at h
  split at h
  · simp [not_mem_of_readWeekDate h]
  · simp [not_mem_of_readMonthDate h]
  · simp [not_mem_of_readWeekDate h]
  · exact not_mem_of_readMonthDate h

/-! ## Times -/

theorem dotsApart_of_readPlaces {t : Text} {micro : Nat} (h : readPlaces t = some micro) :
    DotsApart t := by
  cases t with
  | nil => exact List.isChain_nil
  | cons c places =>
    rw [readPlaces] at h
    split at h
    · rename_i hplaces
      have hdot : .char '.' ∉ places := dot_not_digits (List.all_eq_true.1 hplaces.2.2)
      refine List.isChain_cons.2 ⟨?_, dotsApart_of_not_mem hdot⟩
      rintro d hd - rfl
      exact hdot (List.mem_of_head? hd)
    · cases h

theorem dotsApart_of_skipColon {colons : Bool} {t u : Text} (h : skipColon colons t = some u)
    (hu : DotsApart u) : DotsApart t := by
  cases colons with
  | false =>
    obtain rfl := Option.some.inj h
    exact hu
  | true =>
    simp only [skipColon, if_true] at h
    split at h
    · obtain rfl := Option.some.inj h
      exact (dotsApart_append_left (t := [.char ':']) (by decide)).2 hu
    · cases h

/-- A time starts with a digit, and its dots stand apart. -/
theorem startsWithDigit_of_readRawClock {t : Text} {raw : RawClock}
    (h : readRawClock t = some raw) : StartsWithDigit t := by
  obtain ⟨⟨hour, rest⟩, hhour, -⟩ := Option.bind_eq_some_iff.1 h
  exact startsWithDigit_of_readFixed hhour

theorem dotsApart_of_readRawClock {t : Text} {raw : RawClock} (h : readRawClock t = some raw) :
    DotsApart t := by
  obtain ⟨⟨hour, afterHour⟩, hhour, h⟩ := Option.bind_eq_some_iff.1 h
  refine dotsApart_of_readFixed hhour ?_
  simp only at h
  split at h
  · rename_i hnil
    rw [hnil]
    exact List.isChain_nil
  obtain ⟨minutes, hcolon, h⟩ := Option.bind_eq_some_iff.1 h
  obtain ⟨⟨minute, afterMinute⟩, hminute, h⟩ := Option.bind_eq_some_iff.1 h
  refine dotsApart_of_skipColon hcolon (dotsApart_of_readFixed hminute ?_)
  simp only at h
  split at h
  · rename_i hnil
    rw [hnil]
    exact List.isChain_nil
  obtain ⟨seconds, hcolon, h⟩ := Option.bind_eq_some_iff.1 h
  obtain ⟨⟨second, places⟩, hsecond, h⟩ := Option.bind_eq_some_iff.1 h
  obtain ⟨micro, hplaces, -⟩ := Option.bind_eq_some_iff.1 h
  exact dotsApart_of_skipColon hcolon
    (dotsApart_of_readFixed hsecond (dotsApart_of_readPlaces hplaces))

/-! ## Zones -/

theorem dotsApart_of_readOffset {behind : Bool} {t : Text} {o : Offset}
    (h : readOffset behind t = some o) : DotsApart t := by
  obtain ⟨raw, hraw, -⟩ := Option.bind_eq_some_iff.1 h
  exact dotsApart_of_readRawClock hraw

theorem zone_of_sign {sign : CodePoint} {behind : Bool} {t front size time : Text}
    {o : Option Offset} (hsign : sign ≠ .char '.') (hcut : cutAt sign t = some (front, size))
    (h : ((readOffset behind size).map fun o => (front, some o)) = some (time, o)) :
    ∃ zone, t = time ++ zone ∧ DotsApart zone ∧ zone.head? ≠ some (.char '.') := by
  obtain ⟨offset, hoffset, heq⟩ := Option.map_eq_some_iff.1 h
  obtain ⟨rfl, -⟩ := Prod.mk.inj heq
  refine ⟨sign :: size, (cutAt_eq_some hcut).1, ?_, by simpa using hsign⟩
  refine (dotsApart_append_left (t := [sign]) ?_).2 (dotsApart_of_readOffset hoffset)
  simpa using hsign.symm

/-- A zone starts with a sign or is the letter of UTC, and its dots stand apart. -/
theorem zone_of_readZone {t time : Text} {o : Option Offset} (h : readZone t = some (time, o)) :
    ∃ zone, t = time ++ zone ∧ DotsApart zone ∧ zone.head? ≠ some (.char '.') := by
  unfold readZone at h
  split at h
  · rename_i hcut
    exact zone_of_sign (by decide) hcut h
  -- Without a sign there may be a Z at the end.
  · split at h
    · rename_i hcut
      exact zone_of_sign (by decide) hcut h
    · split at h
      · rename_i hcut
        obtain ⟨rfl, -⟩ := Prod.mk.inj (Option.some.inj h)
        exact ⟨[.char 'Z'], (cutAt_eq_some hcut).1, dotsApart_of_not_mem (by decide), by decide⟩
      · cases h
      · obtain ⟨rfl, -⟩ := Prod.mk.inj (Option.some.inj h)
        exact ⟨[], (List.append_nil t).symm, List.isChain_nil, by simp⟩

/-! ## Timestamps -/

theorem startsWithDigit_of_take {t : Text} {n : Nat} (h : StartsWithDigit (t.take n)) :
    StartsWithDigit t := by
  rw [← List.take_append_drop n t]
  exact h.append _

/-- A date with a time starts with a digit, and its dots stand apart. -/
theorem startsWithDigit_of_readDateTime {t : Text} {d : DateTime}
    (h : readDateTime t = some d) : StartsWithDigit t := by
  obtain ⟨date, hdate, -⟩ := Option.bind_eq_some_iff.1 h
  exact startsWithDigit_of_take (startsWithDigit_of_readDate hdate)

theorem dotsApart_of_readDateTime {t : Text} {d : DateTime} (h : readDateTime t = some d) :
    DotsApart t := by
  obtain ⟨date, hdate, h⟩ := Option.bind_eq_some_iff.1 h
  obtain ⟨⟨time, offset⟩, hzone, h⟩ := Option.bind_eq_some_iff.1 h
  obtain ⟨raw, hraw, -⟩ := Option.bind_eq_some_iff.1 h
  obtain ⟨zone, hrest, hzonedots, hzonehead⟩ := zone_of_readZone hzone
  have hstart : StartsWithDigit (time ++ zone) := (startsWithDigit_of_readRawClock hraw).append zone
  have hbehind : DotsApart (time ++ zone) :=
    (dotsApart_of_readRawClock hraw).append hzonedots hzonehead
  rw [← hrest] at hstart hbehind
  rw [← List.take_append_drop (dateLength t) t, dotsApart_append_left (not_mem_of_readDate hdate)]
  -- The character between the date and the time may be a dot; a digit follows it.
  cases hdrop : t.drop (dateLength t) with
  | nil => exact List.isChain_nil
  | cons separator rest =>
    have hrest : t.drop (dateLength t + 1) = rest := by
      rw [← List.drop_drop, hdrop]
      rfl
    rw [hrest] at hstart hbehind
    exact DotsApart.append (t := [separator]) (List.isChain_singleton _) hbehind
      (hstart.head_ne rfl)

/-- A text whose dots are passed over: between blanks, a day of eight characters without dashes, and
two dots behind it. -/
def Overrun (t : Text) : Prop :=
  ∃ day d, trim t = day ++ "..".text ∧ day.length = 8 ∧ day[4]? ≠ some (.char '-') ∧
    readDate day = some d

/-- Two bytes hold two dots in a row only when they are these dots. -/
theorem eq_dots_of_byteCount {t : Text} (h : byteCount t = 2) (hdots : ¬ DotsApart t) :
    t = "..".text := by
  obtain ⟨front, back, rfl⟩ := dots_infix_iff.2 hdots
  have htwo : byteCount "..".text = 2 := rfl
  rw [byteCount_append, byteCount_append, htwo] at h
  rw [eq_nil_of_byteCount (t := front) (by omega), eq_nil_of_byteCount (t := back) (by omega)]
  rfl

theorem startsWithDigit_of_readDay {t : Text} {d : Date} (h : readDay t = some d) :
    StartsWithDigit t := by
  unfold readDay at h
  split at h
  · rename_i hdate
    exact startsWithDigit_of_readDate hdate
  · split at h
    · exact startsWithDigit_of_take (startsWithDigit_of_readDate h)
    · cases h

/-- The dots of a text that reads as a day stand apart, but for two of them behind it. -/
theorem overrun_of_readDay {t : Text} {d : Date} (h : readDay t = some d) (hdots : ¬ DotsApart t) :
    ∃ day, t = day ++ "..".text ∧ day.length = 8 ∧ day[4]? ≠ some (.char '-') ∧
      readDate day = some d := by
  unfold readDay at h
  split at h
  · rename_i hdate
    exact absurd (dotsApart_of_not_mem (not_mem_of_readDate hdate)) hdots
  · split at h
    · rename_i hover
      rw [← List.take_append_drop 8 t, dotsApart_append_left (not_mem_of_readDate h)] at hdots
      have hback := eq_dots_of_byteCount hover.2 hdots
      -- The two dots are behind the eighth place, so the text goes on there.
      have hlength : 8 < t.length := by
        apply Nat.lt_of_not_le
        intro hshort
        rw [List.drop_eq_nil_of_le hshort] at hback
        cases hback
      refine ⟨t.take 8, ?_, List.length_take_of_le (Nat.le_of_lt hlength), ?_, h⟩
      · rw [← hback, List.take_append_drop]
      · rw [List.getElem?_take_of_lt (by decide)]
        exact hover.1
    · cases h

/-- Two dots behind such a day are passed over. -/
theorem readDay_dots {day : Text} {d : Date} (hlength : day.length = 8)
    (hdash : day[4]? ≠ some (.char '-')) (h : readDate day = some d) :
    readDay (day ++ "..".text) = some d := by
  have hdots : ¬ DotsApart (day ++ "..".text) := dots_infix_iff.1 ⟨day, [], List.append_nil _⟩
  have hnone : readDate (day ++ "..".text) = none := by
    refine Option.eq_none_iff_forall_ne_some.2 fun e he => ?_
    exact hdots (dotsApart_of_not_mem (not_mem_of_readDate he))
  have hfour : (day ++ "..".text)[4]? = day[4]? := List.getElem?_append_left (by omega)
  rw [readDay, hnone, hfour, List.drop_left' hlength, List.take_left' hlength]
  simp only [h]
  exact if_pos ⟨hdash, rfl⟩

theorem Timestamp.parse_eq_ok_iff {t : Text} {x : Timestamp} :
    Timestamp.parse t = .ok x ↔ readTimestamp (trim t) = some x := by
  unfold Timestamp.parse
  cases readTimestamp (trim t) <;> simp

/-- **A timestamp starts with a digit.** -/
theorem startsWithDigit_of_parse {t : Text} {x : Timestamp} (h : Timestamp.parse t = .ok x) :
    StartsWithDigit (trim t) := by
  rw [Timestamp.parse_eq_ok_iff, readTimestamp] at h
  split at h
  · rename_i hday
    exact startsWithDigit_of_readDay hday
  · obtain ⟨d, htime, -⟩ := Option.map_eq_some_iff.1 h
    exact startsWithDigit_of_readDateTime htime

/-- **The texts with two dots in a row that are read** are those in which they are passed over. -/
theorem parse_dots_iff {t : Text} :
    ((∃ x, Timestamp.parse t = .ok x) ∧ ¬ DotsApart t) ↔ Overrun t := by
  rw [← dotsApart_trim]
  constructor
  · rintro ⟨⟨x, h⟩, hdots⟩
    rw [Timestamp.parse_eq_ok_iff, readTimestamp] at h
    split at h
    · rename_i d hday
      obtain ⟨day, hover⟩ := overrun_of_readDay hday hdots
      exact ⟨day, d, hover⟩
    · obtain ⟨d, htime, -⟩ := Option.map_eq_some_iff.1 h
      exact absurd (dotsApart_of_readDateTime htime) hdots
  · rintro ⟨day, d, htrim, hlength, hdash, hread⟩
    refine ⟨⟨.date d, ?_⟩, ?_⟩
    · rw [Timestamp.parse_eq_ok_iff, htrim, readTimestamp, readDay_dots hlength hdash hread]
    · rw [htrim]
      exact dots_infix_iff.1 ⟨day, [], List.append_nil _⟩

end SearchQuery
