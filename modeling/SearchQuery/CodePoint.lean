/-!
# Code points

What a text is made of. A code point is a character, or one **half**: one of the two units that
UTF-16 writes a character above U+FFFF with. A half has no character of its own, yet an escape in
a settings file can spell one that stands alone, and it is kept as it was spelt.

`toNat` numbers the code points, and `ofNat` goes back; `ofNat_toNat` says that nothing is lost.
-/

namespace SearchQuery

/-- A character, or a half that stands alone. -/
inductive CodePoint where
  | char (c : Char)
  /-- The code point U+D800 plus `n`. -/
  | half (n : Fin 0x800)
deriving DecidableEq, Repr

namespace CodePoint

instance : Coe Char CodePoint := ⟨.char⟩

/-- The number of the first half. -/
def firstHalf : Nat := 0xD800

def toNat : CodePoint → Nat
  | .char c => c.toNat
  | .half n => firstHalf + n.val

/-- The code point with a number; the null character stands in for numbers above U+10FFFF. -/
def ofNat (n : Nat) : CodePoint :=
  if h : firstHalf ≤ n ∧ n < firstHalf + 0x800 then .half ⟨n - firstHalf, by omega⟩
  else .char (Char.ofNat n)

@[simp] theorem toNat_char (c : Char) : (CodePoint.char c).toNat = c.toNat := rfl

theorem ofNat_toNat (c : CodePoint) : ofNat c.toNat = c := by
  cases c with
  | char c =>
    have h : ¬ (firstHalf ≤ c.toNat ∧ c.toNat < firstHalf + 0x800) := by
      have hc := c.valid
      simp only [UInt32.isValidChar, Nat.isValidChar] at hc
      simp only [firstHalf]
      change c.toNat < 0xD800 ∨ 0xDFFF < c.toNat ∧ c.toNat < 0x110000 at hc
      omega
    simp [ofNat, h, toNat, Char.ofNat_toNat]
  | half n =>
    have h : firstHalf ≤ firstHalf + n.val ∧ firstHalf + n.val < firstHalf + 0x800 :=
      ⟨Nat.le_add_right _ _, Nat.add_lt_add_left n.isLt _⟩
    simp [ofNat, toNat, h]

/-- Whether a code point is a digit of ASCII. -/
def isDigit : CodePoint → Bool
  | .char c => c.isDigit
  | .half _ => false

@[simp] theorem isDigit_char (c : Char) : (CodePoint.char c).isDigit = c.isDigit := rfl

/-- How many bytes a code point takes; a half counts like its neighbours among the characters. -/
def byteCount : CodePoint → Nat
  | .char c => c.utf8Size
  | .half _ => 3

/-- The character to print for a code point: a half is shown by the replacement character. -/
def shown : CodePoint → Char
  | .char c => c
  | .half _ => '\ufffd'

end CodePoint

end SearchQuery
