import SearchQuery.Decimal.Digits

/-!
# Binary numbers of 64 bits

The values that a number with a fraction or an exponent can have: not a number, an infinity of
either sign, or a whole number of at most 53 bits times a power of two. `Binary64.nearest` rounds
a decimal to the nearest of them, a tie to the one with an even significand. All arithmetic is
exact, on natural numbers.
-/

namespace SearchQuery

inductive Binary64 where
  | nan
  | infinite (negative : Bool)
  /-- The significand times two to the exponent. -/
  | finite (negative : Bool) (significand : Nat) (exponent : Int)
deriving DecidableEq, Repr

/-- The nearest whole number to a quotient, the even one of two at the same distance. -/
def roundedQuotient (num den : Nat) : Nat :=
  let q := num / den
  let twice := 2 * (num % den)
  if twice < den then q
  else if den < twice then q + 1
  else if q % 2 = 0 then q
  else q + 1

namespace Binary64

/-- The least exponent of a finite value. -/
def leastExponent : Int := -1074

/-- The greatest exponent of a finite value. -/
def greatestExponent : Int := 971

def zero (negative : Bool) : Binary64 := .finite negative 0 leastExponent

/-- `num / (den * 2 ^ exponent)`, rounded. -/
def scaledQuotient (num den : Nat) (exponent : Int) : Nat :=
  roundedQuotient (num * Nat.pow 2 (-exponent).toNat) (den * Nat.pow 2 exponent.toNat)

/-- The exponent with which a quotient has a significand of 53 bits before rounding, or the least
exponent where that is greater. -/
def exponentOf (num den : Nat) : Int :=
  let estimate : Int := (num.log2 : Int) - den.log2 - 52
  let exact :=
    if num * Nat.pow 2 (-estimate).toNat < den * Nat.pow 2 estimate.toNat * Nat.pow 2 52 then
      estimate - 1
    else estimate
  max exact leastExponent

/-- The value with a significand and an exponent: an infinity where the exponent is too great. -/
def ofParts (negative : Bool) (significand : Nat) (exponent : Int) : Binary64 :=
  if greatestExponent < exponent then .infinite negative
  else if significand = 0 then zero negative
  else .finite negative significand exponent

/-- The value nearest to a quotient. A significand that rounding takes to 54 bits is halved. -/
def ofQuotient (negative : Bool) (num den : Nat) : Binary64 :=
  let exponent := exponentOf num den
  let significand := scaledQuotient num den exponent
  if significand = Nat.pow 2 53 then ofParts negative (Nat.pow 2 52) (exponent + 1)
  else ofParts negative significand exponent

/-- The value nearest to `digits * 10 ^ exponent`. What lies far outside the range of finite values
is decided by the number of digits alone. -/
def nearest (negative : Bool) (digits : Nat) (exponent : Int) : Binary64 :=
  let places : Int := (natural digits).length + exponent
  if digits = 0 ∨ places < -330 then zero negative
  else if 310 < places then .infinite negative
  else ofQuotient negative (digits * Nat.pow 10 exponent.toNat) (Nat.pow 10 (-exponent).toNat)

/-- Whether a value is one of the two zeros. -/
def isZero : Binary64 → Bool
  | .finite _ 0 _ => true
  | _ => false

end Binary64

end SearchQuery
