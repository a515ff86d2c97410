import SearchQuery.Decimal.Binary64

/-!
# Shortest decimals

A finite binary number is written with the fewest digits that read back as the same number; of
two such decimals the nearer one is taken, and the one with an even last digit when both are as
near.

**Search.** Every finite binary number has an exact decimal expansion. For one digit, two digits
and so on, the expansion cut there and its upper neighbour are read back, until one of them gives
the number. The whole expansion is the last candidate.

**Layout.** The digits stand around a point from `0.0001` up to below `1e+16`, with `.0` behind a
whole number; outside that range one digit stands before the point, and an exponent with a sign
and at least two digits follows.
-/

namespace SearchQuery

/-- A decimal: digits times a power of ten. -/
structure Decimal where
  digits : Nat
  exponent : Int
deriving DecidableEq, Repr

namespace Decimal

/-- The exact expansion of `significand * 2 ^ exponent`. -/
def expansion (significand : Nat) (exponent : Int) : Decimal :=
  if 0 ≤ exponent then ⟨significand * Nat.pow 2 exponent.toNat, 0⟩
  else ⟨significand * Nat.pow 5 (-exponent).toNat, exponent⟩

/-- Whether a decimal reads back as a value without its sign. -/
def reads (d : Decimal) (significand : Nat) (exponent : Int) : Bool :=
  Binary64.nearest false d.digits d.exponent == .finite false significand exponent

/-- The best decimal that leaves `dropped` digits of the expansion away, if one reads back. -/
def candidate? (exact : Decimal) (significand : Nat) (exponent : Int) (dropped : Nat) :
    Option Decimal :=
  let unit := Nat.pow 10 dropped
  let lower : Decimal := ⟨exact.digits / unit, exact.exponent + dropped⟩
  let upper : Decimal := ⟨exact.digits / unit + 1, exact.exponent + dropped⟩
  match lower.reads significand exponent, upper.reads significand exponent with
  | true, true => some (if roundedQuotient exact.digits unit = lower.digits then lower else upper)
  | true, false => some lower
  | false, true => some upper
  | false, false => none

/-- The first decimal that reads back, with ever fewer digits dropped. -/
def search (exact : Decimal) (significand : Nat) (exponent : Int) : Nat → Decimal
  | 0 => exact
  | dropped + 1 =>
    match candidate? exact significand exponent dropped with
    | some d => d
    | none => search exact significand exponent dropped

/-- The shortest decimal of a finite value other than zero, without its sign. -/
def shortest (significand : Nat) (exponent : Int) : Decimal :=
  let exact := expansion significand exponent
  exact.search significand exponent (natural exact.digits).length

/-- The digits without the zeros at their end. -/
def significant (d : Decimal) : Text :=
  ((natural d.digits).reverse.dropWhile (· == .char '0')).reverse

/-- How many digits stand before the point. -/
def point (d : Decimal) : Int := (natural d.digits).length + d.exponent

/-- The exponent behind the digits: a sign and at least two digits. -/
def exponentText (e : Int) : Text :=
  let size := natural e.natAbs
  .char 'e' :: (if e < 0 then '-' else '+') :: (if size.length < 2 then .char '0' :: size else size)

/-- Lays digits out, with the point behind the first `point` of them. -/
def layout (digits : Text) (point : Int) : Text :=
  if point ≤ -4 ∨ 16 < point then
    digits.take 1 ++ (if digits.length ≤ 1 then [] else .char '.' :: digits.drop 1)
      ++ exponentText (point - 1)
  else if point ≤ 0 then "0.".text ++ List.replicate (-point).toNat (.char '0') ++ digits
  else if digits.length ≤ point.toNat then
    digits ++ List.replicate (point.toNat - digits.length) (.char '0') ++ ".0".text
  else digits.take point.toNat ++ .char '.' :: digits.drop point.toNat

end Decimal

/-- A binary number in a text, with the words for what is no number and for infinity. -/
def Binary64.write (nanWord infinityWord : Text) : Binary64 → Text
  | .nan => nanWord
  | .infinite negative => dashIf negative ++ infinityWord
  | .finite negative significand exponent =>
    dashIf negative ++
      (if significand = 0 then "0.0".text
       else
        let d := Decimal.shortest significand exponent
        Decimal.layout d.significant d.point)
where
  dashIf (negative : Bool) : Text := if negative then [.char '-'] else []

end SearchQuery
