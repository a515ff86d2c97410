import SearchQuery.Json

/-!
# Writing JSON

Two spaces of indentation for each level, one element or member a line, `[]` and an empty pair of
braces for what is empty. Strings hold visible characters of ASCII only: the others are escaped,
by a letter where they have one and by UTF-16 units otherwise.

A value is first laid out in pieces (`layout`), of which each new line is one.
-/

namespace SearchQuery

namespace Json

/-! ## Strings -/

/-- A UTF-16 unit by its number. -/
def unitEscape (n : Nat) : Text := .char '\\' :: .char 'u' :: fixedHex 4 n

/-- The letter behind the backslash, for the characters that have one. -/
def escapeLetter? : CodePoint → Option CodePoint
  | .char '"' => some '"'
  | .char '\\' => some '\\'
  | .char '\n' => some 'n'
  | .char '\r' => some 'r'
  | .char '\t' => some 't'
  | .char '\x0c' => some 'f'
  | .char '\x08' => some 'b'
  | _ => none

/-- A code point inside a string. -/
def writePoint (c : CodePoint) : Text :=
  match escapeLetter? c with
  | some l => [.char '\\', l]
  | none =>
    let n := c.toNat
    if 0x20 ≤ n ∧ n < 0x7F then [c]
    else if n < 0x10000 then unitEscape n
    else unitEscape (0xD800 + (n - 0x10000) / 0x400) ++ unitEscape (0xDC00 + (n - 0x10000) % 0x400)

def writeString (t : Text) : Text := .char '"' :: t.flatMap writePoint ++ [.char '"']

/-! ## Values -/

/-- A piece of a layout: a text inside a line, or a new line with the indentation of a level. -/
inductive Piece where
  | inside (text : Text)
  | newLine (level : Nat)

def Piece.write : Piece → Text
  | inside t => t
  | newLine level => .char '\n' :: List.replicate (2 * level) (.char ' ')

def writeFloat (x : Binary64) : Text := x.write "NaN".text "Infinity".text

mutual

/-- The pieces of a value that starts on a line of some level. -/
def layout (level : Nat) : Json → List Piece
  | .null => [.inside "null".text]
  | .bool b => [.inside (if b then "true".text else "false".text)]
  | .int n => [.inside (integer n)]
  | .float x => [.inside (writeFloat x)]
  | .string t => [.inside (writeString t)]
  | .array [] => [.inside "[]".text]
  | .array (x :: xs) =>
    .inside "[".text :: .newLine (level + 1) :: layout (level + 1) x
      ++ layoutElements (level + 1) xs ++ [.newLine level, .inside "]".text]
  | .object [] => [.inside "\x7b\x7d".text]
  | .object ((k, x) :: ms) =>
    .inside "\x7b".text :: .newLine (level + 1) :: .inside (writeString k ++ ": ".text)
      :: layout (level + 1) x ++ layoutMembers (level + 1) ms
      ++ [.newLine level, .inside "\x7d".text]

/-- The elements after the first, each behind a comma and on a line of its own. -/
def layoutElements (level : Nat) : List Json → List Piece
  | [] => []
  | x :: xs =>
    .inside ",".text :: .newLine level :: layout level x ++ layoutElements level xs

/-- The members after the first, each behind a comma and on a line of its own. -/
def layoutMembers (level : Nat) : List (Text × Json) → List Piece
  | [] => []
  | (k, x) :: ms =>
    .inside ",".text :: .newLine level :: .inside (writeString k ++ ": ".text)
      :: layout level x ++ layoutMembers level ms

end

/-- The text of a value. -/
def write (v : Json) : Text := (layout 0 v).flatMap Piece.write

/-- The text of a file that holds an object. -/
def document (members : Entries Text Json) : Text := (Json.object members).write ++ [.char '\n']

end Json

end SearchQuery
