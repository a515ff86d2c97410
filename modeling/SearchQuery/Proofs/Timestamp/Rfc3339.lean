import Mathlib.Data.List.Forall2
import SearchQuery.Proofs.Timestamp.ReadBack

/-!
# Timestamps of RFC 3339

RFC 3339 writes a timestamp as `YYYY-MM-DDTHH:MM:SS` and its zone as `Z` or as hours and minutes
behind a sign.

**Theorem (`DateFormat.timezoned_rfc3339`).** What the timezoned format writes starts with such a
timestamp, with `Z` exactly for the offset of zero, and denotes the same instant but for the dropped
part of a second. Nothing follows exactly when the offset is a whole number of minutes
(`DateFormat.timezoned_seconds` is one that is not).

The layouts are patterns in which a zero stands for any digit, so the written numerals fit wherever
they have the right width (`laidOut_fixed`). A layout also tells the length of a text, and this says
that nothing else fits.
-/

namespace SearchQuery

/-! ## Layouts -/

/-- Whether a text has the layout of a pattern, in which `0` stands for any digit. -/
def LaidOut (pattern t : Text) : Prop :=
  List.Forall₂ (fun p c => if p = .char '0' then c.isDigit = true else c = p) pattern t

theorem LaidOut.append {p q t u : Text} (ht : LaidOut p t) (hu : LaidOut q u) :
    LaidOut (p ++ q) (t ++ u) := List.rel_append ht hu

theorem LaidOut.cons {c : CodePoint} {p t : Text} (hc : c ≠ .char '0') (h : LaidOut p t) :
    LaidOut (c :: p) (c :: t) := List.Forall₂.cons (by rw [if_neg hc]) h

theorem laidOut_fixed (width n : Nat) : LaidOut (List.replicate width '0') (fixed width n) := by
  induction width with
  | zero => exact List.Forall₂.nil
  | succ width ih => exact List.Forall₂.cons (by rw [if_pos rfl, isDigit_digit]) ih

theorem Date.laidOut_iso (d : Date) : LaidOut "0000-00-00".text d.iso := by
  have h := (laidOut_fixed 4 d.year).append (((laidOut_fixed 2 d.month).append
    ((laidOut_fixed 2 d.day).cons (c := '-') (by decide))).cons (c := '-') (by decide))
  rw [Date.iso, List.append_assoc]
  exact h

theorem Clock.laidOut_isoSeconds (c : Clock) : LaidOut "00:00:00".text c.isoSeconds := by
  have h := (laidOut_fixed 2 c.hour).append (((laidOut_fixed 2 c.minute).append
    ((laidOut_fixed 2 c.second).cons (c := ':') (by decide))).cons (c := ':') (by decide))
  rw [isoSeconds, List.append_assoc]
  exact h

/-! ## Zones -/

namespace Offset

/-- How RFC 3339 writes an offset. -/
def layout (o : Offset) : Text :=
  if o.micros = 0 then "Z".text else if o.micros < 0 then "-00:00".text else "+00:00".text

/-- Hours and minutes of the size of an offset. -/
def minutesText (o : Offset) : Text :=
  fixed 2 (o.micros.natAbs / 1000000 / 3600) ++ .char ':' ::
    fixed 2 (o.micros.natAbs / 1000000 / 60 % 60)

theorem laidOut_minutesText (o : Offset) : LaidOut "00:00".text o.minutesText :=
  (laidOut_fixed 2 _).append ((laidOut_fixed 2 _).cons (c := ':') (by decide))

/-- Seconds of the size of an offset and their places, where it is not a whole number of minutes. -/
def secondsText (o : Offset) : Text :=
  if o.micros.natAbs / 1000000 % 60 = 0 ∧ o.micros.natAbs % 1000000 = 0 then []
  else .char ':' :: (fixed 2 (o.micros.natAbs / 1000000 % 60) ++
    (if o.micros.natAbs % 1000000 = 0 then []
      else .char '.' :: fixed 6 (o.micros.natAbs % 1000000)))

theorem sizeText_eq (o : Offset) : o.sizeText = o.minutesText ++ o.secondsText := by
  simp [sizeText, minutesText, secondsText]

theorem secondsText_eq_nil_iff (o : Offset) : o.secondsText = [] ↔ o.micros % 60000000 = 0 := by
  rw [secondsText]
  by_cases h : o.micros.natAbs / 1000000 % 60 = 0 ∧ o.micros.natAbs % 1000000 = 0
  · rw [if_pos h]
    exact iff_of_true rfl (by omega)
  · rw [if_neg h]
    exact iff_of_false (List.cons_ne_nil _ _) (by omega)

end Offset

/-- A zone starts as RFC 3339 writes it. -/
theorem DateFormat.zone_eq (o : Offset) :
    ∃ front rest, zone o = front ++ rest ∧ LaidOut o.layout front ∧
      (rest = [] ↔ o.micros % 60000000 = 0) := by
  rw [zone, Offset.layout]
  by_cases hzero : o.micros = 0
  · rw [if_pos hzero, if_pos hzero]
    exact ⟨"Z".text, [], rfl, List.Forall₂.nil.cons (by decide), iff_of_true rfl (by omega)⟩
  · rw [if_neg hzero, if_neg hzero]
    refine ⟨_ :: o.minutesText, o.secondsText, by rw [o.iso_eq, o.sizeText_eq, List.cons_append],
      ?_, o.secondsText_eq_nil_iff⟩
    by_cases hsign : o.micros < 0
    · rw [if_pos hsign, if_pos hsign]
      exact o.laidOut_minutesText.cons (by decide)
    · rw [if_neg hsign, if_neg hsign]
      exact o.laidOut_minutesText.cons (by decide)

/-! ## Timestamps -/

/-- A timestamp as RFC 3339 writes it at an offset. -/
def Rfc3339 (o : Offset) (t : Text) : Prop := LaidOut ("0000-00-00T00:00:00".text ++ o.layout) t

theorem Rfc3339.length_eq {o : Offset} {t u : Text} (ht : Rfc3339 o t) (hu : Rfc3339 o u) :
    t.length = u.length :=
  (List.Forall₂.length_eq ht).symm.trans (List.Forall₂.length_eq hu)

namespace DateFormat

/-- What the timezoned format writes starts as RFC 3339 writes it. -/
theorem write_timezoned_eq (t : Timestamp) :
    ∃ front rest, timezoned.write t = front ++ rest ∧ Rfc3339 t.moment.zone front ∧
      (rest = [] ↔ t.moment.zone.micros % 60000000 = 0) := by
  obtain ⟨front, rest, hzone, hfront, hrest⟩ := zone_eq t.moment.zone
  refine ⟨t.moment.date.iso ++ .char 'T' :: (t.moment.clock.isoSeconds ++ front), rest, ?_, ?_,
    hrest⟩
  · simp [write_timezoned, hzone]
  · have h := t.moment.date.laidOut_iso.append
      ((t.moment.clock.laidOut_isoSeconds.append hfront).cons (c := 'T') (by decide))
    exact h

theorem rfc3339_write_iff (t : Timestamp) :
    Rfc3339 t.moment.zone (timezoned.write t) ↔ t.moment.zone.micros % 60000000 = 0 := by
  obtain ⟨front, rest, hwrite, hfront, hrest⟩ := write_timezoned_eq t
  rw [← hrest, hwrite]
  constructor
  · intro h
    have hlength := h.length_eq hfront
    rw [List.length_append] at hlength
    exact List.eq_nil_of_length_eq_zero (by omega)
  · rintro rfl
    rwa [List.append_nil]

/-- **What the timezoned format writes** is RFC 3339 for an offset of whole minutes, has seconds
behind the minutes of every other offset, and denotes the instant without its part of a second. -/
theorem timezoned_rfc3339 (t : Timestamp) :
    (Rfc3339 t.moment.zone (timezoned.write t) ↔ t.moment.zone.micros % 60000000 = 0) ∧
    (∃ front rest, timezoned.write t = front ++ rest ∧ Rfc3339 t.moment.zone front ∧
      (rest = [] ↔ t.moment.zone.micros % 60000000 = 0)) ∧
    ∃ u, Timestamp.parse (timezoned.write t) = .ok u ∧
      u.instant = t.instant - t.moment.clock.micro.val :=
  ⟨rfc3339_write_iff t, write_timezoned_eq t, _, timezoned.parse_write t,
    instant_shown_timezoned t⟩

/-- An offset of an hour and half a minute is written with its seconds. -/
theorem timezoned_seconds :
    ∃ t, Timestamp.parse "2024-06-01T10:00:00+01:00:30".text = .ok t ∧
      timezoned.write t = "2024-06-01T10:00:00+01:00:30".text ∧
      ¬ Rfc3339 t.moment.zone (timezoned.write t) := by
  refine ⟨.dateTime ⟨(Date.of? 2024 6 1).get rfl, ⟨10, 0, 0, 0⟩, some ⟨3630000000, by decide⟩, none⟩,
    rfl, by decide, ?_⟩
  rw [rfc3339_write_iff]
  decide

end DateFormat

end SearchQuery
