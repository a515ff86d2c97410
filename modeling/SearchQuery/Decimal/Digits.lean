import SearchQuery.Text

/-!
# Decimal numerals

A numeral of fixed width has leading zeros (`fixed`); it is read by `readFixed`, which takes
exactly its width in digits and leaves the rest of the text. A natural number of any size is
written by `natural` and read by `ofDigits`.

**Main statements.** `readFixed_fixed`: what `fixed` writes, `readFixed` reads, whatever follows.
`ofDigits_natural`: the same for numerals without leading zeros.
-/

namespace SearchQuery

/-! ## Digits -/

/-- The numeral of the last decimal place of a number. -/
def digit (n : Nat) : CodePoint := .char (Nat.digitChar (n % 10))

/-- The value of a digit of ASCII. -/
def digitValue (c : CodePoint) : Nat := c.toNat - '0'.toNat

theorem isDigit_digit (n : Nat) : (digit n).isDigit = true := by
  have h : n % 10 < 10 := Nat.mod_lt _ (by decide)
  unfold digit
  generalize n % 10 = d at h
  have : ∀ e, e < 10 → (Nat.digitChar e).isDigit = true := by decide
  exact this d h

@[simp] theorem digitValue_digit (n : Nat) : digitValue (digit n) = n % 10 := by
  have h : n % 10 < 10 := Nat.mod_lt _ (by decide)
  unfold digit
  generalize n % 10 = d at h ⊢
  have : ∀ e, e < 10 → digitValue (.char (Nat.digitChar e)) = e := by decide
  exact this d h

/-! ## Fixed width -/

/-- The last `width` decimal places of a number, with leading zeros. -/
def fixed : Nat → Nat → Text
  | 0, _ => []
  | width + 1, n => digit (n / Nat.pow 10 width) :: fixed width n

/-- Reads exactly `width` digits onto the value read so far. -/
def readFixedFrom : Nat → Nat → Text → Option (Nat × Text)
  | 0, value, t => some (value, t)
  | width + 1, value, c :: t =>
    if c.isDigit then readFixedFrom width (value * 10 + digitValue c) t else none
  | _ + 1, _, [] => none

/-- Reads a numeral of exactly `width` digits at the front of a text, and leaves the rest. -/
def readFixed (width : Nat) (t : Text) : Option (Nat × Text) := readFixedFrom width 0 t

@[simp] theorem length_fixed (width n : Nat) : (fixed width n).length = width := by
  induction width with
  | zero => rfl
  | succ width ih => simp [fixed, ih]

theorem isDigit_of_mem_fixed {width n : Nat} {c : CodePoint} (h : c ∈ fixed width n) :
    c.isDigit = true := by
  induction width with
  | zero => simp [fixed] at h
  | succ width ih =>
    simp only [fixed, List.mem_cons] at h
    rcases h with rfl | h
    · exact isDigit_digit _
    · exact ih h

/-- One more place: a leading digit, and the places behind it. -/
theorem places_succ (m width n : Nat) :
    m * Nat.pow 10 (width + 1) + n % Nat.pow 10 (width + 1) =
      (m * 10 + n / Nat.pow 10 width % 10) * Nat.pow 10 width + n % Nat.pow 10 width := by
  have hsplit : n % 10 ^ (width + 1) = n % 10 ^ width + 10 ^ width * (n / 10 ^ width % 10) :=
    Nat.mod_pow_succ
  simp only [Nat.pow_eq]
  rw [hsplit, Nat.pow_succ, Nat.add_mul, Nat.mul_comm (10 ^ width) (n / 10 ^ width % 10),
    Nat.mul_comm (10 ^ width) 10, ← Nat.mul_assoc, Nat.add_comm (n % 10 ^ width), Nat.add_assoc]

theorem readFixedFrom_fixed (width value n : Nat) (rest : Text) :
    readFixedFrom width value (fixed width n ++ rest)
      = some (value * Nat.pow 10 width + n % Nat.pow 10 width, rest) := by
  induction width generalizing value with
  | zero => simp [fixed, readFixedFrom, Nat.mod_one]
  | succ width ih =>
    simp only [fixed, List.cons_append, readFixedFrom, isDigit_digit, if_true, digitValue_digit, ih]
    rw [places_succ]

/-- A numeral of fixed width reads back, whatever follows it. -/
theorem readFixed_fixed {width n : Nat} (h : n < Nat.pow 10 width) (rest : Text) :
    readFixed width (fixed width n ++ rest) = some (n, rest) := by
  rw [readFixed, readFixedFrom_fixed, Nat.mod_eq_of_lt h, Nat.zero_mul, Nat.zero_add]

/-! ## Any size -/

/-- The numeral of a natural number, without leading zeros. -/
def natural (n : Nat) : Text := (Nat.toDigits 10 n).map .char

/-- The numeral of an integer. -/
def integer : Int → Text
  | .ofNat n => natural n
  | .negSucc n => .char '-' :: natural (n + 1)

/-- The value of a run of digits. -/
def ofDigits (t : Text) : Nat := t.foldl (fun value c => value * 10 + digitValue c) 0

/-- A numeral without leading zeros reads back. -/
theorem ofDigits_natural (n : Nat) : ofDigits (natural n) = n := by
  have h := Nat.ofDigitChars_toDigits (by decide : 1 < 10) (by decide : 10 ≤ 10) (n := n)
  rw [Nat.ofDigitChars_eq_foldl] at h
  rw [ofDigits, natural, List.foldl_map]
  simpa [digitValue, Nat.mul_comm] using h

theorem isDigit_of_mem_natural {n : Nat} {c : CodePoint} (h : c ∈ natural n) :
    c.isDigit = true := by
  obtain ⟨d, hd, rfl⟩ := List.mem_map.1 h
  exact Nat.isDigit_of_mem_toDigits (by decide) (by decide) hd

theorem natural_ne_nil (n : Nat) : natural n ≠ [] := by simp [natural]

/-- The last `width` places of a number to base sixteen, in lower case. -/
def fixedHex : Nat → Nat → Text
  | 0, _ => []
  | width + 1, n => .char (Nat.digitChar (n / Nat.pow 16 width % 16)) :: fixedHex width n

end SearchQuery
