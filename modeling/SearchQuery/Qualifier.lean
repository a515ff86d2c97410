import SearchQuery.Fragment
import SearchQuery.Timestamp.Reader

/-!
# Qualifiers

A qualifier is a key and a value, perhaps negated, as a user writes it: `label=bug,docs`. This
module reads qualifiers and turns them into terms.

**Values.** `repo` and `org` take one value, `label` and `author` several with commas between
them; blank ones are dropped. `text` takes its value as it is. `created` and `closed` take a
timestamp behind an operator, or two with `..` between them.
-/

namespace SearchQuery

/-! ## Keys -/

inductive Key where
  | repo
  | org
  | label
  | author
  | text
  | created
  | closed
deriving DecidableEq, Repr

namespace Key

/-- The keys in the order in which a message lists them. -/
def all : List Key := [repo, org, label, author, text, created, closed]

def name : Key → Text
  | repo => "repo".text
  | org => "org".text
  | label => "label".text
  | author => "author".text
  | text => "text".text
  | created => "created".text
  | closed => "closed".text

def ofName? (name : Text) : Option Key := all.find? fun k => k.name == name

@[simp] theorem ofName?_name (k : Key) : ofName? k.name = some k := by cases k <;> rfl

end Key

/-! ## Terms of the search syntax -/

namespace Term

def repository (name : Text) : Term := .tag Key.repo.name name

def organization (name : Text) : Term := .tag Key.org.name name

/-- Any of the labels, joined as they are given. -/
def label (values : List Text) : Term := .tag Key.label.name (joined [.char ','] values)

/-- Any of the authors, joined as they are given. -/
def author (values : List Text) : Term := .tag Key.author.name (joined [.char ','] values)

def created (format : DateFormat) (value : Timestamp) (c : Comparison) : Term :=
  .single Key.created.name format value c

def closed (format : DateFormat) (value : Timestamp) (c : Comparison) : Term :=
  .single Key.closed.name format value c

def createdBetween (format : DateFormat) (start finish : Timestamp) : Term :=
  .range Key.created.name format start finish

def closedBetween (format : DateFormat) (start finish : Timestamp) : Term :=
  .range Key.closed.name format start finish

end Term

/-! ## Reading values -/

/-- Why a qualifier gives no term. -/
inductive QualifierError where
  | unknownKey (name : Text)
  | noValue (key : Key)
  | invalidDate (error : InvalidDate)
deriving DecidableEq, Repr

def QualifierError.message : QualifierError → Text
  | .unknownKey name =>
    "Unknown qualifier ".text ++ quoted name ++ " (expected one of: ".text
      ++ joined ", ".text (Key.all.map Key.name) ++ [.char ')']
  | .noValue key => "No value given for qualifier ".text ++ quoted key.name
  | .invalidDate e => e.message

/-- The key with a name. -/
def Key.ofName (name : Text) : Except QualifierError Key :=
  match Key.ofName? name with
  | some k => .ok k
  | none => .error (.unknownKey name)

/-- The one value of a qualifier, between blanks. -/
def oneValue (key : Key) (value : Text) : Except QualifierError Text :=
  if trim value = [] then .error (.noValue key) else .ok (trim value)

/-- The values between commas, without the blank ones. -/
def valuesOf (value : Text) : List Text := ((pieces ',' value).map trim).filter (· ≠ [])

/-- The values of a qualifier, at least one. -/
def someValues (key : Key) (value : Text) : Except QualifierError (List Text) :=
  if valuesOf value = [] then .error (.noValue key) else .ok (valuesOf value)

/-- The operator in front of a text, and what follows it. The longer symbol is taken where both
would do. -/
def splitOperator : Text → Comparison × Text
  | .char '<' :: .char '=' :: r => (.leq, r)
  | .char '>' :: .char '=' :: r => (.geq, r)
  | .char '<' :: r => (.less, r)
  | .char '>' :: r => (.greater, r)
  | .char '=' :: r => (.equal, r)
  | r => (.equal, r)

def readDateValue (raw : Text) : Except QualifierError Timestamp :=
  match Timestamp.parse raw with
  | .ok t => .ok t
  | .error e => .error (.invalidDate e)

/-- The term of a key that takes dates: a range when the value holds two dots in a row. -/
def dateTerm (key : Key) (format : DateFormat) (value : Text) : Except QualifierError Term :=
  match cutAtDots value with
  | some (start, finish) => do
    let s ← readDateValue start
    let f ← readDateValue finish
    .ok (.range key.name format s f)
  | none => do
    let (comparison, rest) := splitOperator (trim value)
    let t ← readDateValue rest
    .ok (.single key.name format t comparison)

/-- The format of dates that a flag selects. -/
def DateFormat.ofFlag (timezoned : Bool) : DateFormat := if timezoned then .timezoned else .date

/-- The term of a known key. -/
def Key.term (key : Key) (timezoned : Bool) (value : Text) : Except QualifierError Term :=
  match key with
  | .text => .ok (.text value)
  | .repo => do .ok (.repository (← oneValue key value))
  | .org => do .ok (.organization (← oneValue key value))
  | .label => do .ok (.label (← someValues key value))
  | .author => do .ok (.author (← someValues key value))
  | .created => dateTerm key (.ofFlag timezoned) value
  | .closed => dateTerm key (.ofFlag timezoned) value

/-! ## Qualifiers -/

/-- A key and a value as a user gives them. -/
structure Qualifier where
  key : Text
  value : Text
  excluded : Bool
deriving DecidableEq, Repr

/-- Why a text is no qualifier. -/
inductive PairError where
  | noEquals (raw : Text)
  | noName (raw : Text)
deriving DecidableEq, Repr

def PairError.message : PairError → Text
  | .noEquals raw => "expected key=value, got ".text ++ quoted raw
  | .noName raw => "missing qualifier name in ".text ++ quoted raw

namespace Qualifier

/-- Reads `key=value`, cut at the first sign of equality, with blanks around both dropped. -/
def read (raw : Text) (excluded : Bool) : Except PairError Qualifier :=
  match cutAt '=' raw with
  | none => .error (.noEquals raw)
  | some (key, value) =>
    if trim key = [] then .error (.noName raw) else .ok ⟨trim key, trim value, excluded⟩

/-- The fragment that a qualifier stands for. -/
def fragment (q : Qualifier) (timezoned : Bool) : Except QualifierError Fragment := do
  let key ← Key.ofName q.key
  let term ← key.term timezoned q.value
  .ok ⟨term, q.excluded⟩

/-- The fragment of a qualifier is excluded as the qualifier says. -/
theorem fragment_eq (key value : Text) (excluded timezoned : Bool) :
    (Qualifier.mk key value excluded).fragment timezoned =
      (do (← Key.ofName key).term timezoned value).map fun t => ⟨t, excluded⟩ := by
  rw [fragment]
  cases Key.ofName key with
  | error e => rfl
  | ok k => cases h : k.term timezoned value <;> simp [h, bind, Except.bind, Except.map]

end Qualifier

end SearchQuery
