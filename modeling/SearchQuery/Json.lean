import SearchQuery.Entries
import SearchQuery.Decimal.Shortest
import SearchQuery.Text.Quoted

/-!
# JSON values

The values of a settings file. Whole numbers have any size, numbers with a fraction or an exponent
are binary, and the members of an object keep their order.

**Two texts of a value.** `Json.plain` is the value as a text of its own: a string stands as it
is. `Json.display` is the value inside a message: strings stand between quotes, and so do those
inside arrays and objects.

**Emptiness.** `Json.isEmpty` holds of null, false, zero, and the empty string, array and object:
what counts as nothing where an object is expected.
-/

namespace SearchQuery

inductive Json where
  | null
  | bool (value : Bool)
  | int (value : Int)
  | float (value : Binary64)
  | string (value : Text)
  | array (elements : List Json)
  | object (members : List (Text × Json))

namespace Json

def isEmpty : Json → Bool
  | .null => true
  | .bool b => !b
  | .int n => n == 0
  | .float x => x.isZero
  | .string t => t.isEmpty
  | .array xs => xs.isEmpty
  | .object ms => ms.isEmpty

/-- A truth value, the same in both texts. -/
def boolText (b : Bool) : Text := if b then "True".text else "False".text

def floatText (x : Binary64) : Text := x.write "nan".text "inf".text

mutual

/-- A value as it is shown inside a message. -/
def display : Json → Text
  | .null => "None".text
  | .bool b => boolText b
  | .int n => integer n
  | .float x => floatText x
  | .string t => quoted t
  | .array [] => [.char '[', .char ']']
  | .array (x :: xs) => .char '[' :: display x ++ displayElements xs ++ [.char ']']
  | .object [] => [.char '\x7b', .char '\x7d']
  | .object ((k, x) :: ms) =>
    .char '\x7b' :: quoted k ++ ": ".text ++ display x ++ displayMembers ms ++ [.char '\x7d']

/-- The elements after the first, each behind a comma. -/
def displayElements : List Json → Text
  | [] => []
  | x :: xs => ", ".text ++ display x ++ displayElements xs

/-- The members after the first, each behind a comma. -/
def displayMembers : List (Text × Json) → Text
  | [] => []
  | (k, x) :: ms => ", ".text ++ quoted k ++ ": ".text ++ display x ++ displayMembers ms

end

/-- A value as a text of its own. -/
def plain : Json → Text
  | .string t => t
  | v => v.display

end Json

end SearchQuery
