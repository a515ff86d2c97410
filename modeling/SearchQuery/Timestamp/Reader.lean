import SearchQuery.Timestamp
import SearchQuery.Text.Quoted

/-!
# Reading timestamps

The spellings of ISO 8601 that a timestamp may have.

**Dates.** `YYYY-MM-DD`, `YYYYMMDD`, `YYYY-Www`, `YYYYWww`, `YYYY-Www-D` and `YYYYWwwD`; a week
without a day is its Monday. Digits are those of ASCII and every number has exactly its digits.
Behind a day without dashes, and with nothing else there, two bytes are passed over unread.

**Times.** A date may be followed by one character of any kind and a time `HH`, `HH:MM`,
`HH:MM:SS`, `HHMM` or `HHMMSS`, the seconds with a point or a comma and more places. Places past
the sixth are dropped.

**Zones.** The first `-` of the time, else its first `+`, starts an offset, written like a time
whose minutes and seconds may be over 59; else `Z` at the end means UTC.

Where the date ends and the time begins depends on the layout of the date alone, see
`dateLength`.
-/

namespace SearchQuery

/-! ## Dates -/

/-- The day of a week that a text spells out behind the number of the week: nothing for Monday,
or one digit, behind a dash where the year has one too. -/
def readWeekday (dashed : Bool) : Text → Option Nat
  | [] => some 1
  | t =>
    let digits : Option Text :=
      if dashed then match t with
        | .char '-' :: r => some r
        | _ => none
      else some t
    match digits.bind (readFixed 1) with
    | some (day, []) => some day
    | _ => none

/-- The rest of a week date behind its `W`. -/
def readWeekDate (dashed : Bool) (year : Nat) (t : Text) : Option Date := do
  let (week, rest) ← readFixed 2 t
  let day ← readWeekday dashed rest
  Date.ofWeek? year week day

/-- The rest of a month date behind the year and its dash. -/
def readMonthDate (dashed : Bool) (year : Nat) (t : Text) : Option Date := do
  let (month, rest) ← readFixed 2 t
  let rest ← if dashed then
      match rest with
      | .char '-' :: r => some r
      | _ => none
    else some rest
  match ← readFixed 2 rest with
  | (day, []) => Date.of? year month day
  | _ => none

/-- Reads a whole text as a date. -/
def readDate (t : Text) : Option Date := do
  let (year, rest) ← readFixed 4 t
  match rest with
  | .char '-' :: .char 'W' :: r => readWeekDate true year r
  | .char '-' :: r => readMonthDate true year r
  | .char 'W' :: r => readWeekDate false year r
  | r => readMonthDate false year r

/-! ## Times -/

/-- The parts of a second that a text of digits stands for, cut to microseconds. -/
def microsOfPlaces (places : Text) : Nat := ofDigits ((places ++ "000000".text).take 6)

/-- Reads what follows the seconds: nothing, or a point or comma and digits. -/
def readPlaces : Text → Option Nat
  | [] => some 0
  | c :: places =>
    if (c = '.' ∨ c = ',') ∧ places ≠ [] ∧ places.all CodePoint.isDigit then
      some (microsOfPlaces places)
    else none

/-- Hours, minutes, seconds and microseconds as they are written, not yet checked. -/
structure RawClock where
  hour : Nat
  minute : Nat
  second : Nat
  micro : Nat
deriving DecidableEq, Repr

/-- Takes a colon away where one is due. -/
def skipColon (colons : Bool) (t : Text) : Option Text :=
  if colons then
    match t with
    | .char ':' :: r => some r
    | _ => none
  else some t

/-- Reads a whole text as a time, with colons everywhere or nowhere. -/
def readRawClock (t : Text) : Option RawClock := do
  let (hour, rest) ← readFixed 2 t
  if rest = [] then return ⟨hour, 0, 0, 0⟩
  let colons := rest.head? = some (.char ':')
  let (minute, rest) ← readFixed 2 (← skipColon colons rest)
  if rest = [] then return ⟨hour, minute, 0, 0⟩
  let (second, rest) ← readFixed 2 (← skipColon colons rest)
  let micro ← readPlaces rest
  return ⟨hour, minute, second, micro⟩

def RawClock.micros (c : RawClock) : Nat :=
  ((c.hour * 60 + c.minute) * 60 + c.second) * 1000000 + c.micro

/-- Reads a whole text as the size of an offset, and gives it a sign. -/
def readOffset (behind : Bool) (t : Text) : Option Offset := do
  let size ← readRawClock t
  Offset.of? (if behind then -(size.micros : Int) else size.micros)

/-- Parts a time from its zone. -/
def readZone (t : Text) : Option (Text × Option Offset) :=
  match cutAt '-' t with
  | some (time, zone) => (readOffset true zone).map fun o => (time, some o)
  | none =>
    match cutAt '+' t with
    | some (time, zone) => (readOffset false zone).map fun o => (time, some o)
    | none =>
      match cutAt 'Z' t with
      | some (time, []) => some (time, some .utc)
      | some _ => none
      | none => some (t, none)

/-! ## Timestamps -/

/-- How many characters the date takes of a text that is longer than a date. A week date with
dashes ends before the dash behind its week when a digit stands two characters on: that dash then
parts the date from a time. In a week date without dashes the number of digits behind the week
decides whether the first of them is a day. -/
def dateLength (t : Text) : Nat :=
  if t[4]? = some (.char '-') then
    if t[5]? = some (.char 'W') then
      if t[8]? = some (.char '-') then
        if t[10]?.any CodePoint.isDigit then 8 else 10
      else 8
    else 10
  else if t[4]? = some (.char 'W') then
    let digitsEnd := 7 + ((t.drop 7).takeWhile CodePoint.isDigit).length
    if digitsEnd < 9 then digitsEnd
    else if digitsEnd % 2 = 0 then 7
    else 8
  else 8

/-- Reads a whole text as a date, one character and a time that is not empty. -/
def readDateTime (t : Text) : Option DateTime := do
  let date ← readDate (t.take (dateLength t))
  let (time, offset) ← readZone (t.drop (dateLength t + 1))
  let raw ← readRawClock time
  let clock ← Clock.of? raw.hour raw.minute raw.second raw.micro
  return ⟨date, clock, offset, none⟩

/-- Reads a whole text as a date. A date written as eight digits, or as a week and a day without
dashes, may be followed by two bytes, which mean nothing. -/
def readDay (t : Text) : Option Date :=
  match readDate t with
  | some d => some d
  | none =>
    if t[4]? ≠ some (.char '-') ∧ byteCount (t.drop 8) = 2 then readDate (t.take 8) else none

/-- Reads a whole text as a timestamp, a date if it can be one. -/
def readTimestamp (t : Text) : Option Timestamp :=
  match readDay t with
  | some d => some (.date d)
  | none => (readDateTime t).map .dateTime

theorem readDay_of_readDate {t : Text} {d : Date} (h : readDate t = some d) :
    readDay t = some d := by
  simp [readDay, h]

/-- A text that spells no timestamp. -/
structure InvalidDate where
  text : Text
deriving DecidableEq, Repr

def InvalidDate.message (e : InvalidDate) : Text :=
  "Invalid date ".text ++ quoted e.text ++ ": expected ISO 8601".text

/-- Reads a timestamp between blanks. -/
def Timestamp.parse (raw : Text) : Except InvalidDate Timestamp :=
  match readTimestamp (trim raw) with
  | some t => .ok t
  | none => .error ⟨trim raw⟩

end SearchQuery
