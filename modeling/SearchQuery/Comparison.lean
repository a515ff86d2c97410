import SearchQuery.Text.Quoted

/-!
# Comparisons

The operator in front of a single timestamp. A comparison is a set of the three members `eq`, `lt`
and `gt`, so comparisons combine like sets. Five of the eight sets are **operators**: they have a
symbol that may stand in a query. The symbol belongs to the set as a whole.

| operator | members     | symbol  |
|----------|-------------|---------|
| equal    | `eq`        | (empty) |
| less     | `lt`        | `<`     |
| greater  | `gt`        | `>`     |
| geq      | `eq`, `lt`  | `>=`    |
| leq      | `eq`, `gt`  | `<=`    |

`parse` reads a symbol, with `=` as a second spelling of the empty one; `parse_symbol?` says that
every operator is read back from its symbol.
-/

namespace SearchQuery

/-- A set of the members `eq`, `lt` and `gt`. -/
structure Comparison where
  eq : Bool
  lt : Bool
  gt : Bool
deriving DecidableEq, Repr

namespace Comparison

/-! ## Sets -/

def equal : Comparison := ⟨true, false, false⟩

def less : Comparison := ⟨false, true, false⟩

def greater : Comparison := ⟨false, false, true⟩

def geq : Comparison := ⟨true, true, false⟩

def leq : Comparison := ⟨true, false, true⟩

/-- The set written as a number below eight: 1 for `eq`, 2 for `lt`, 4 for `gt`. -/
def bits (c : Comparison) : Nat := c.eq.toNat + 2 * c.lt.toNat + 4 * c.gt.toNat

/-- The set that the three low bits of an integer stand for, in two's complement. -/
def ofInt (n : Int) : Comparison := ⟨n % 2 = 1, n / 2 % 2 = 1, n / 4 % 2 = 1⟩

def union (a b : Comparison) : Comparison := ⟨a.eq || b.eq, a.lt || b.lt, a.gt || b.gt⟩

def inter (a b : Comparison) : Comparison := ⟨a.eq && b.eq, a.lt && b.lt, a.gt && b.gt⟩

/-- The members of exactly one of two sets. -/
def symmDiff (a b : Comparison) : Comparison := ⟨a.eq ^^ b.eq, a.lt ^^ b.lt, a.gt ^^ b.gt⟩

def complement (a : Comparison) : Comparison := ⟨!a.eq, !a.lt, !a.gt⟩

/-- Whether every member of `a` is one of `b`. -/
def subset (a b : Comparison) : Bool := a.inter b == a

theorem ofInt_bits (c : Comparison) : ofInt c.bits = c := by
  obtain ⟨e, l, g⟩ := c
  cases e <;> cases l <;> cases g <;> decide

theorem bits_ofInt (n : Int) : ((ofInt n).bits : Int) = n % 8 := by
  have h : ∀ p : Prop, [Decidable p] → ((decide p).toNat : Int) = if p then 1 else 0 := by
    intro p _; by_cases hp : p <;> simp [hp]
  simp only [bits, ofInt, Int.natCast_add, Int.natCast_mul, h]
  split <;> split <;> split <;> omega

/-! ## Operators -/

/-- The symbol of an operator; the other sets have none. -/
def symbol? : Comparison → Option Text
  | ⟨true, false, false⟩ => some "".text
  | ⟨false, true, false⟩ => some "<".text
  | ⟨true, false, true⟩ => some "<=".text
  | ⟨true, true, false⟩ => some ">=".text
  | ⟨false, false, true⟩ => some ">".text
  | _ => none

/-- The operators in the order in which a symbol is looked up. -/
def operators : List Comparison := [equal, less, leq, geq, greater]

/-- A symbol that belongs to no operator. -/
structure UnknownSymbol where
  symbol : Text
deriving DecidableEq, Repr

def UnknownSymbol.message (e : UnknownSymbol) : Text :=
  "Unknown comparison operator: ".text ++ quoted e.symbol

/-- Reads a symbol between blanks. -/
def parse (symbol : Text) : Except UnknownSymbol Comparison :=
  let s := trim symbol
  if s = [.char '='] then .ok equal
  else
    match operators.find? fun c => c.symbol? == some s with
    | some c => .ok c
    | none => .error ⟨s⟩

/-- Every operator is read back from its symbol. -/
theorem parse_symbol? {c : Comparison} {s : Text} (h : c.symbol? = some s) : parse s = .ok c := by
  obtain ⟨e, l, g⟩ := c
  cases e <;> cases l <;> cases g <;> simp [symbol?] at h <;> subst h <;> rfl

/-! ## How a comparison is shown -/

/-- The name of a set that has one of its own. -/
def name? : Comparison → Option Text
  | ⟨true, false, false⟩ => some "EQ".text
  | ⟨false, true, false⟩ => some "LT".text
  | ⟨false, false, true⟩ => some "GT".text
  | ⟨true, true, false⟩ => some "GEQ".text
  | ⟨true, false, true⟩ => some "LEQ".text
  | _ => none

/-- The name of a set, or the names of its members with bars between them. -/
def names (c : Comparison) : Text :=
  match c.name? with
  | some n => n
  | none =>
    joined [.char '|'] ((if c.eq then ["EQ".text] else []) ++ (if c.lt then ["LT".text] else [])
      ++ (if c.gt then ["GT".text] else []))

/-- A comparison as it stands in a message about itself. -/
def inspect (c : Comparison) : Text :=
  if c.bits = 0 then "<Ord: 0>".text
  else "<Ord.".text ++ c.names ++ ": ".text ++ natural c.bits ++ [.char '>']

/-- The symbol of an operator, and a name for the other sets. -/
def describe (c : Comparison) : Text :=
  match c.symbol? with
  | some s => s
  | none => if c.bits = 0 then "Ord(0)".text else "Ord.".text ++ c.names

end Comparison

end SearchQuery
