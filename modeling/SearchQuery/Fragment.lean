import SearchQuery.Comparison
import SearchQuery.DateFormat

/-!
# Fragments

One token of a search query.

**Terms.** A term is free text between double quotes, a `tag:value` pair, a tag with a single
timestamp behind an operator, or a tag with a range of timestamps. A range is checked when it is
rendered, by `Timestamp.after`: one that starts after its end can be built and is not rendered. What
is printed of the ends of another is less than what was compared, and can be the wrong way round.

**Exclusion.** A fragment is a term and a flag; an excluded fragment is its term behind a dash.
`Fragment.render_exclude` says that exclusion changes nothing else, failures included.

**Foreign fragments.** Whatever else renders to a token takes part in an assembly through its
outcome.
-/

namespace SearchQuery

/-! ## Terms and their failures -/

inductive Kind where
  | text
  | tag
  | timeSingle
  | timeRange
deriving DecidableEq, Repr

def Kind.name : Kind → Text
  | .text => "text".text
  | .tag => "tag".text
  | .timeSingle => "time_single".text
  | .timeRange => "time_range".text

inductive Term where
  /-- Free text. -/
  | text (value : Text)
  /-- A tag and its value. -/
  | tag (tag value : Text)
  /-- A tag and one timestamp behind an operator. -/
  | single (tag : Text) (format : DateFormat) (value : Timestamp) (comparison : Comparison)
  /-- A tag and a range of timestamps, both ends included. -/
  | range (tag : Text) (format : DateFormat) (start finish : Timestamp)
deriving DecidableEq, Repr

/-- Why a fragment was left out of a query. -/
inductive QueryError where
  /-- A range starts after its end. -/
  | invertedPeriod (tag : Text) (start finish : Timestamp)
  /-- A foreign fragment refused to be rendered. -/
  | refused (message : Text)
deriving DecidableEq, Repr

def QueryError.message : QueryError → Text
  | .invertedPeriod tag start finish =>
    "invalid time period for '".text ++ tag ++ "': ".text ++ start.iso ++ " is after ".text
      ++ finish.iso
  | .refused message => message

/-- What a foreign fragment may break down with. -/
inductive Breakdown where
  | value
  | runtime
deriving DecidableEq, Repr

/-- Why a fragment was not rendered. Only the first cause leaves an assembly going. -/
inductive RenderError where
  | query (error : QueryError)
  /-- A comparison without a symbol. -/
  | notOperator (comparison : Comparison)
  /-- A foreign fragment broke down. -/
  | broken (breakdown : Breakdown) (message : Text)
deriving DecidableEq, Repr

def RenderError.message : RenderError → Text
  | .query e => e.message
  | .notOperator c => c.inspect ++ " is not a comparison operator".text
  | .broken _ message => message

/-- The symbol of an operator; the other comparisons have none. -/
def Comparison.render (c : Comparison) : Except RenderError Text :=
  match c.symbol? with
  | some s => .ok s
  | none => .error (.notOperator c)

namespace Term

def kind : Term → Kind
  | .text _ => .text
  | .tag _ _ => .tag
  | .single _ _ _ _ => .timeSingle
  | .range _ _ _ _ => .timeRange

def render : Term → Except RenderError Text
  | .text value => .ok (.char '"' :: value ++ [.char '"'])
  | .tag name value => .ok (name ++ .char ':' :: value)
  | .single name format value comparison =>
    match comparison.render with
    | .ok symbol => .ok (name ++ .char ':' :: symbol ++ format.write value)
    | .error e => .error e
  | .range name format start finish =>
    if start.after finish then .error (.query (.invertedPeriod name start finish))
    else .ok (name ++ .char ':' :: format.write start ++ "..".text ++ format.write finish)

/-- Whether two terms are of one kind and agree in every field, timestamps up to
`Timestamp.same`. -/
def same : Term → Term → Bool
  | .text v, .text w => v == w
  | .tag t v, .tag u w => t == u && v == w
  | .single t f v c, .single u g w d => t == u && f == g && v.same w && c == d
  | .range t f s e, .range u g s' e' => t == u && f == g && s.same s' && e.same e'
  | _, _ => false

end Term

/-! ## Exclusion -/

/-- What stands in front of a fragment: a dash when it is excluded. -/
def dash (excluded : Bool) : Text := if excluded then [.char '-'] else []

structure Fragment where
  term : Term
  excluded : Bool
deriving DecidableEq, Repr

namespace Fragment

def exclude (f : Fragment) : Fragment := { f with excluded := true }

def render (f : Fragment) : Except RenderError Text :=
  f.term.render.map fun t => dash f.excluded ++ t

def same (f g : Fragment) : Bool := f.term.same g.term && f.excluded == g.excluded

@[simp] theorem exclude_exclude (f : Fragment) : f.exclude.exclude = f.exclude := rfl

/-- Exclusion puts a dash in front of what is rendered and changes no failure. -/
theorem render_exclude (t : Term) :
    (Fragment.mk t false).exclude.render = (Fragment.mk t false).render.map (.char '-' :: ·) := by
  cases h : t.render <;> simp [render, exclude, dash, h, Except.map]

end Fragment

/-! ## Foreign fragments -/

/-- A fragment of another make: its kind, if it tells one, and what rendering it gives. -/
structure Foreign where
  kind : Option Kind
  outcome : Except RenderError Text

/-- What an assembly is made of. -/
inductive Item where
  | own (fragment : Fragment)
  | foreign (foreign : Foreign)

namespace Item

def kind : Item → Option Kind
  | .own f => some f.term.kind
  | .foreign f => f.kind

def render : Item → Except RenderError Text
  | .own f => f.render
  | .foreign f => f.outcome

end Item

end SearchQuery
