import SearchQuery.Calendar
import SearchQuery.Decimal.Digits

/-!
# Timestamps

A timestamp is a date, or a date with a time of day and perhaps an offset from UTC. A date stands
for its midnight, and whatever has no offset is taken as UTC.

**Regions.** An offset is the same at all times, or it is what a region gives at the local time. A
region is not modelled as a rule: what it says of one time is kept with that time. Whatever is read
from a text has no region.

**Instants.** `Timestamp.instant` is the exact number of microseconds of the local fields less
the offset, also where UTC would leave the calendar.

**Order.** `Timestamp.after` goes by instants, but not for two times of one region: their clocks are
compared as they stand, so where clocks are put back the earlier time can be after the later one.

**Sameness.** `Timestamp.same` tells kinds apart: a date is never the same as a date with a time,
nor one with an offset the same as one without. Two with offsets are the same when they are the
same instant. In one region the fields count instead, and a time whose offset depends on its fold is
the same as none outside its region.

**Text.** `Timestamp.iso` writes `YYYY-MM-DD` or `YYYY-MM-DDTHH:MM:SS`, then six places of a
second unless they are zero, then the offset.
-/

namespace SearchQuery

/-! ## Offsets -/

/-- How far local time is ahead of UTC, in microseconds: less than a day either way. -/
structure Offset where
  micros : Int
  bounded : micros.natAbs < 86400000000
deriving DecidableEq, Repr

namespace Offset

def utc : Offset := ⟨0, by decide⟩

/-- The offset of so many microseconds, if it is less than a day. -/
def of? (micros : Int) : Option Offset :=
  if h : micros.natAbs < 86400000000 then some ⟨micros, h⟩ else none

@[simp] theorem of?_self (o : Offset) : of? o.micros = some o := dif_pos o.bounded

/-- Hours and minutes behind the sign; seconds and their places only when they are not zero. -/
def iso (o : Offset) : Text :=
  let size := o.micros.natAbs
  let seconds := size / 1000000
  let micros := size % 1000000
  .char (if o.micros < 0 then '-' else '+') :: fixed 2 (seconds / 3600)
    ++ .char ':' :: fixed 2 (seconds / 60 % 60)
    ++ (if seconds % 60 = 0 ∧ micros = 0 then []
        else .char ':' :: fixed 2 (seconds % 60)
          ++ (if micros = 0 then [] else .char '.' :: fixed 6 micros))

end Offset

/-! ## Dates with a time -/

/-- A time of day to the microsecond. -/
structure Clock where
  hour : Fin 24
  minute : Fin 60
  second : Fin 60
  micro : Fin 1000000
deriving DecidableEq, Repr

namespace Clock

def midnight : Clock := ⟨0, 0, 0, 0⟩

/-- The time with these numbers, if there is one. -/
def of? (hour minute second micro : Nat) : Option Clock :=
  if h : (hour < 24 ∧ minute < 60) ∧ second < 60 ∧ micro < 1000000 then
    some ⟨⟨hour, h.1.1⟩, ⟨minute, h.1.2⟩, ⟨second, h.2.1⟩, ⟨micro, h.2.2⟩⟩
  else none

@[simp] theorem of?_self (c : Clock) : of? c.hour c.minute c.second c.micro = some c :=
  dif_pos ⟨⟨c.hour.isLt, c.minute.isLt⟩, c.second.isLt, c.micro.isLt⟩

/-- Seconds since midnight. -/
def seconds (c : Clock) : Nat := (c.hour.val * 60 + c.minute.val) * 60 + c.second.val

/-- Microseconds since midnight. -/
def micros (c : Clock) : Nat := c.seconds * 1000000 + c.micro.val

/-- The time without the part of a second. -/
def wholeSeconds (c : Clock) : Clock := { c with micro := 0 }

/-- Hours, minutes and seconds. -/
def isoSeconds (c : Clock) : Text :=
  fixed 2 c.hour.val ++ .char ':' :: fixed 2 c.minute.val ++ .char ':' :: fixed 2 c.second.val

/-- Hours, minutes and seconds, and six places of a second unless they are zero. -/
def iso (c : Clock) : Text :=
  c.isoSeconds ++ (if c.micro.val = 0 then [] else .char '.' :: fixed 6 c.micro.val)

end Clock

/-- A zone whose offset varies, as it bears on one local time. -/
structure Region where
  /-- Tells regions apart. -/
  serial : Nat
  /-- The offset of the same local time at the other fold. It is another one where clocks are put
  back, so that the time is there twice, or forward, so that it is skipped. -/
  refolded : Option Offset
deriving DecidableEq, Repr

/-- A date with a time of day, an offset if it is known, and the region that gives the offset
unless it is the same at all times. -/
structure DateTime where
  date : Date
  clock : Clock
  offset : Option Offset
  region : Option Region
deriving DecidableEq, Repr

/-- Year, month and day with dashes between them. -/
def Date.iso (d : Date) : Text :=
  fixed 4 d.year ++ .char '-' :: fixed 2 d.month ++ .char '-' :: fixed 2 d.day

namespace DateTime

def iso (t : DateTime) : Text :=
  t.date.iso ++ .char 'T' :: t.clock.iso ++ (t.offset.map Offset.iso).getD []

/-- The offset, UTC when none is known. -/
def zone (t : DateTime) : Offset := t.offset.getD .utc

/-- The time with an offset: in UTC if none is known, whatever its region. -/
def aware (t : DateTime) : DateTime :=
  match t.offset with
  | some _ => t
  | none => { t with offset := some .utc, region := none }

/-- Microseconds of the local fields since day 0. -/
def localMicros (t : DateTime) : Int := (t.date.ordinal * 86400000000 + t.clock.micros : Nat)

/-- Microseconds since day 0 in UTC. -/
def instant (t : DateTime) : Int := t.localMicros - t.zone.micros

@[simp] theorem date_aware (t : DateTime) : t.aware.date = t.date := by
  unfold aware
  split <;> rfl

@[simp] theorem clock_aware (t : DateTime) : t.aware.clock = t.clock := by
  unfold aware
  split <;> rfl

@[simp] theorem zone_aware (t : DateTime) : t.aware.zone = t.zone := by
  unfold aware
  split <;> simp [zone, *]

@[simp] theorem instant_aware (t : DateTime) : t.aware.instant = t.instant := by
  simp [instant, localMicros]

/-! ### Order and sameness -/

/-- Whether two times are of one region. -/
def together (t u : DateTime) : Bool :=
  match t.region, u.region with
  | some r, some s => r.serial == s.serial
  | _, _ => false

/-- Whether a time is later than another: by the clock in one region, else by instant. -/
def after (t u : DateTime) : Bool :=
  if t.together u then u.localMicros < t.localMicros else u.instant < t.instant

/-- Whether the offset of a time is the same at the other fold. -/
def steady (t : DateTime) : Bool := t.region.all fun r => r.refolded == t.offset

/-- Whether two times have the same date and the same clock. -/
def sameFields (t u : DateTime) : Bool := t.date == u.date && t.clock == u.clock

/-- Whether two times are the same: by their fields in one region or without offsets, else by
instant. -/
def same (t u : DateTime) : Bool :=
  if t.together u then t.sameFields u
  else t.steady && u.steady &&
    match t.offset, u.offset with
    | none, none => t.sameFields u
    | some _, some _ => t.instant == u.instant
    | _, _ => false

end DateTime

/-! ## Timestamps -/

inductive Timestamp where
  | date (date : Date)
  | dateTime (dateTime : DateTime)
deriving DecidableEq, Repr

namespace Timestamp

def iso : Timestamp → Text
  | .date d => d.iso
  | .dateTime t => t.iso

/-- The calendar day in local time. -/
def day : Timestamp → Date
  | .date d => d
  | .dateTime t => t.date

/-- The timestamp with a time and an offset: midnight for a date, UTC where no offset is known. -/
def moment : Timestamp → DateTime
  | .date d => ⟨d, .midnight, some .utc, none⟩
  | .dateTime t => t.aware

def instant (t : Timestamp) : Int := t.moment.instant

/-- Whether a timestamp is later than another. -/
def after (t u : Timestamp) : Bool := t.moment.after u.moment

/-- Whether two timestamps are of one kind and the same in it. -/
def same : Timestamp → Timestamp → Bool
  | .date d, .date e => d == e
  | .dateTime t, .dateTime u => t.same u
  | _, _ => false

end Timestamp

end SearchQuery
