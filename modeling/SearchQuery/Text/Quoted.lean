import SearchQuery.Text.Unprintable
import SearchQuery.Decimal.Digits

/-!
# Quoted texts

How a text is shown inside a message: between single quotes, or between double quotes when it
holds a single quote and no double one. The quote in use and the backslash stand behind a
backslash; line feed, carriage return and tab have a letter; every other code point that is not
printed as it is, and so every half, appears by its number, in two, four or eight places to base
sixteen.
-/

namespace SearchQuery

/-- The quote that a text is put between. -/
def quoteMark (t : Text) : CodePoint :=
  if t.contains '\'' && !t.contains '"' then '"' else '\''

/-- A code point by its number. -/
def byNumber (c : CodePoint) : Text :=
  let n := c.toNat
  if n < 0x100 then .char '\\' :: .char 'x' :: fixedHex 2 n
  else if n < 0x10000 then .char '\\' :: .char 'u' :: fixedHex 4 n
  else .char '\\' :: .char 'U' :: fixedHex 8 n

/-- A code point as it stands between quotes. -/
def quotedPoint (mark c : CodePoint) : Text :=
  if c = mark ∨ c = '\\' then [.char '\\', c]
  else if c = '\n' then [.char '\\', .char 'n']
  else if c = '\r' then [.char '\\', .char 'r']
  else if c = '\t' then [.char '\\', .char 't']
  else if isUnprintable c then byNumber c
  else [c]

/-- A text as it is shown inside a message. -/
def quoted (t : Text) : Text :=
  let mark := quoteMark t
  mark :: t.flatMap (quotedPoint mark) ++ [mark]

end SearchQuery
