import SearchQuery.Timestamp
import SearchQuery.Text.Quoted

/-!
# Date formats

How a timestamp is written into a query: as its local calendar day, or to the second with the
offset from UTC. An offset of zero is written `Z`.
-/

namespace SearchQuery

inductive DateFormat where
  | date
  | timezoned
deriving DecidableEq, Repr

/-- A name that no format has. -/
structure UnknownFormat where
  name : Text
deriving DecidableEq, Repr

def UnknownFormat.message (e : UnknownFormat) : Text :=
  quoted e.name ++ " is not a valid DateFormat".text

namespace DateFormat

def name : DateFormat → Text
  | .date => "date".text
  | .timezoned => "timezoned".text

def ofName (name : Text) : Except UnknownFormat DateFormat :=
  if name = DateFormat.date.name then .ok .date
  else if name = DateFormat.timezoned.name then .ok .timezoned
  else .error ⟨name⟩

theorem ofName_name (f : DateFormat) : ofName f.name = .ok f := by cases f <;> rfl

/-- The zone at the end of a timestamp: `Z` for UTC. -/
def zone (o : Offset) : Text := if o.micros = 0 then [.char 'Z'] else o.iso

/-- A timestamp as it stands in a query. -/
def write : DateFormat → Timestamp → Text
  | .date, t => t.day.iso
  | .timezoned, t =>
    let m := t.moment
    m.date.iso ++ .char 'T' :: m.clock.isoSeconds ++ zone m.zone

end DateFormat

end SearchQuery
