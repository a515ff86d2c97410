import SearchQuery.Fragment
import SearchQuery.Proofs.Timestamp.ReadBack

/-!
# Timestamps as they are shown

A message shows all that there is of a timestamp but its region: its kind, its fields, its places of
a second and its offset, or that it has none.

**Theorem (`Timestamp.iso_determines`).** The text of a timestamp is read as that timestamp in no
region (`Timestamp.settled`), also between blanks. So the message of an inverted period belongs to
one tag, one start and one end.

The reader is followed as for what a format writes. There are two parts more: the places of a
second (`Clock.readRawClock_iso`), and a time without a zone, in which no sign may be found
(`readZone_of_not_mem`). In the message, no timestamp has a space in it, so each of the two ends
begins behind the last space before it (`append_cons_inj_of_last`).
-/

namespace SearchQuery

/-! ## Times and zones -/

namespace Clock

theorem readRawClock_iso (c : Clock) :
    readRawClock c.iso = some ⟨c.hour, c.minute, c.second, c.micro⟩ := by
  have hplaces : readPlaces (if c.micro.val = 0 then [] else .char '.' :: fixed 6 c.micro.val) =
      some c.micro.val := by
    by_cases h : c.micro.val = 0
    · rw [if_pos h, h]
      rfl
    · rw [if_neg h]
      exact readPlaces_fixed c.micro.isLt
  have h := readRawClock_seconds c.hour_lt c.minute_lt c.second_lt
    (if c.micro.val = 0 then [] else .char '.' :: fixed 6 c.micro.val)
  rw [hplaces] at h
  simpa [iso, isoSeconds] using h

/-- A character that is neither a digit nor a colon nor a dot is not in a time. -/
theorem not_mem_iso {x : CodePoint} (hd : x.isDigit = false) (hc : x ≠ .char ':')
    (hp : x ≠ .char '.') (c : Clock) : x ∉ c.iso := by
  unfold iso
  split <;> simp [not_mem_isoSeconds hd hc, not_mem_fixed hd, hp]

theorem visible_iso (c : Clock) : Visible c.iso := by
  have hdot : isBlank (.char '.') = false := rfl
  unfold iso
  split <;> simp [hdot]

end Clock

theorem readZone_of_not_mem {time : Text} (hm : .char '-' ∉ time) (hp : .char '+' ∉ time)
    (hz : .char 'Z' ∉ time) : readZone time = some (time, none) := by
  rw [readZone, cutAt_eq_none_iff.2 hm, cutAt_eq_none_iff.2 hp, cutAt_eq_none_iff.2 hz]

/-! ## Timestamps -/

namespace DateTime

/-- The time in no region: its fields and its offset. -/
def settled (t : DateTime) : DateTime := { t with region := none }

theorem iso_eq (t : DateTime) :
    t.iso = t.date.iso ++ .char 'T' :: (t.clock.iso ++ (t.offset.map Offset.iso).getD []) := by
  simp [iso]

theorem readZone_clock (t : DateTime) :
    readZone (t.clock.iso ++ (t.offset.map Offset.iso).getD []) = some (t.clock.iso, t.offset) := by
  have hm : .char '-' ∉ t.clock.iso := t.clock.not_mem_iso rfl (by decide) (by decide)
  have hp : .char '+' ∉ t.clock.iso := t.clock.not_mem_iso rfl (by decide) (by decide)
  have hz : .char 'Z' ∉ t.clock.iso := t.clock.not_mem_iso rfl (by decide) (by decide)
  cases t.offset with
  | none => simpa using readZone_of_not_mem hm hp hz
  | some o => exact readZone_iso hm hp o

theorem read_iso (t : DateTime) : readDateTime t.iso = some t.settled := by
  rw [iso_eq]
  exact readDateTime_iso t.date t.readZone_clock t.clock.readRawClock_iso t.clock.of?_self

theorem visible_iso (t : DateTime) : Visible t.iso := by
  have ht : isBlank (.char 'T') = false := rfl
  have hzone : Visible ((t.offset.map Offset.iso).getD []) := by
    cases t.offset with
    | none => exact visible_nil
    | some o => exact o.visible_iso
  simp [iso_eq, ht, hzone, t.clock.visible_iso]

end DateTime

namespace Timestamp

/-- The timestamp in no region: its kind, its fields and its offset. -/
def settled : Timestamp → Timestamp
  | .date d => .date d
  | .dateTime t => .dateTime t.settled

theorem visible_iso (t : Timestamp) : Visible t.iso := by
  cases t with
  | date d => exact d.visible_iso
  | dateTime t => exact t.visible_iso

theorem read_iso (t : Timestamp) : readTimestamp t.iso = some t.settled := by
  cases t with
  | date d => rw [readTimestamp, iso, readDay_of_readDate (readDate_iso d), settled]
  | dateTime t =>
    -- A date is tried first, and refuses the time behind it.
    have hday : readDay t.iso = none := by
      rw [t.iso_eq]
      exact readDay_iso_cons t.date _ _
    rw [readTimestamp, iso, hday, t.read_iso]
    rfl

theorem parse_iso (t : Timestamp) : parse t.iso = .ok t.settled := by
  rw [parse, t.visible_iso.trim_eq, t.read_iso]

theorem settled_eq_of_iso {t u : Timestamp} (h : t.iso = u.iso) : t.settled = u.settled :=
  Except.ok.inj (t.parse_iso.symm.trans ((congrArg parse h).trans u.parse_iso))

end Timestamp

/-! ## The message of an inverted period -/

/-- A text is cut in one way where a mark stands for the last time. -/
theorem append_cons_inj_of_last {mark : CodePoint} {front back front' back' : Text}
    (hback : mark ∉ back) (hback' : mark ∉ back')
    (h : front ++ mark :: back = front' ++ mark :: back') : front = front' ∧ back = back' := by
  have hcut : ∀ {f b : Text}, mark ∉ b →
      cutAt mark (f ++ mark :: b).reverse = some (b.reverse, f.reverse) := by
    intro f b hb
    have hreverse : (f ++ mark :: b).reverse = b.reverse ++ mark :: f.reverse := by simp
    rw [hreverse]
    exact cutAt_append (by simpa using hb) _
  have hparts := (hcut hback).symm.trans ((congrArg (fun t => cutAt mark t.reverse) h).trans
    (hcut hback'))
  obtain ⟨hb, hf⟩ := Prod.mk.inj (Option.some.inj hparts)
  exact ⟨List.reverse_inj.1 hf, List.reverse_inj.1 hb⟩

theorem Visible.space_not_mem {t : Text} (h : Visible t) : .char ' ' ∉ t :=
  fun hspace => Bool.noConfusion (h _ hspace)

theorem message_invertedPeriod (tag : Text) (start finish : Timestamp) :
    (QueryError.invertedPeriod tag start finish).message =
      (("invalid time period for '".text ++ tag ++ "':".text) ++ .char ' ' :: start.iso ++
        " is after".text) ++ .char ' ' :: finish.iso := by
  simp [QueryError.message, String.text]

/-- **The message of an inverted period** says which period it is. -/
theorem invertedPeriod_of_message {tag tag' : Text} {start start' finish finish' : Timestamp}
    (h : (QueryError.invertedPeriod tag start finish).message =
      (QueryError.invertedPeriod tag' start' finish').message) :
    tag = tag' ∧ start.settled = start'.settled ∧ finish.settled = finish'.settled := by
  have hspace : ∀ t : Timestamp, .char ' ' ∉ t.iso := fun t => t.visible_iso.space_not_mem
  rw [message_invertedPeriod, message_invertedPeriod] at h
  obtain ⟨hfront, hfinish⟩ := append_cons_inj_of_last (hspace finish) (hspace finish') h
  obtain ⟨htag, hstart⟩ := append_cons_inj_of_last (hspace start) (hspace start')
    (List.append_cancel_right hfront)
  exact ⟨List.append_cancel_left (List.append_cancel_right htag),
    Timestamp.settled_eq_of_iso hstart, Timestamp.settled_eq_of_iso hfinish⟩

/-! ## What is shown -/

/-- **What is shown of a timestamp is its kind, its fields and its offset**: they read back between
blanks, and a message that shows two timestamps belongs to these two. -/
theorem Timestamp.iso_determines (t : Timestamp) {front back : Text}
    (hfront : ∀ c ∈ front, isBlank c = true) (hback : ∀ c ∈ back, isBlank c = true) :
    Timestamp.parse (front ++ (t.iso ++ back)) = .ok t.settled ∧
    ∀ tag tag' start start' finish finish',
      (QueryError.invertedPeriod tag start finish).message =
        (QueryError.invertedPeriod tag' start' finish').message →
      tag = tag' ∧ start.settled = start'.settled ∧ finish.settled = finish'.settled := by
  refine ⟨?_, fun _ _ _ _ _ _ => invertedPeriod_of_message⟩
  rw [parse, trim_append hfront hback, t.visible_iso.trim_eq, t.read_iso]

/-- The last microsecond of the calendar, one second and a half behind UTC, between blanks of two
kinds. -/
theorem Timestamp.iso_determines_last :
    let last : Timestamp := .dateTime ⟨(Date.of? 9999 12 31).get rfl, ⟨23, 59, 59, 999999⟩,
      some ⟨-1500000, by decide⟩, none⟩
    (∀ c ∈ "\t".text, isBlank c = true) ∧ (∀ c ∈ "\u3000".text, isBlank c = true) ∧
      last.iso = "9999-12-31T23:59:59.999999-00:00:01.500000".text ∧
      Timestamp.parse ("\t".text ++ (last.iso ++ "\u3000".text)) = .ok last := by
  intro last
  have hfront : ∀ c ∈ "\t".text, isBlank c = true := by decide
  have hback : ∀ c ∈ "\u3000".text, isBlank c = true := by decide
  exact ⟨hfront, hback, by decide, (last.iso_determines hfront hback).1⟩

end SearchQuery
