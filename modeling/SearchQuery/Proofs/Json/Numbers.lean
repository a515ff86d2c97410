import SearchQuery.Json.Printer
import SearchQuery.Json.Reader

/-!
# Numbers and words read back

**Theorem (`readScalar_integer`).** A written whole number reads back when it has no more digits
than are read and what follows does not go on with it.

A number is read as far as it goes, so its reader has to be told where it ends: `EndsNumber` says
of a text that it adds no digit, no point and no exponent to a number in front of it, `EndsDigits`
that it adds no digit. Binary numbers are taken as they are: `Binary64.ReadsBack` says of one that
its own text is read as it.
-/

namespace SearchQuery

/-! ## Numerals without leading zeros -/

/-- The first digit of a numeral is a zero only when it is the whole numeral. -/
theorem natural_of_pos {n : Nat} (h : 0 < n) :
    ∃ c rest, natural n = c :: rest ∧ c ≠ .char '0' ∧ c.isDigit = true ∧
      ∀ d ∈ rest, d.isDigit = true := by
  have hd : ∀ c ∈ natural n, c.isDigit = true := fun c hc => isDigit_of_mem_natural hc
  suffices hs : ∃ c rest, natural n = c :: rest ∧ c ≠ .char '0' by
    obtain ⟨c, rest, hn, hc⟩ := hs
    rw [hn] at hd
    exact ⟨c, rest, hn, hc, hd c List.mem_cons_self, fun d hr => hd d (List.mem_cons_of_mem _ hr)⟩
  clear hd
  induction n using Nat.strongRecOn with
  | ind n ih =>
    by_cases hs : n < 10
    · have hall : ∀ m, m < 10 → 0 < m → Nat.digitChar m ≠ '0' := by decide
      refine ⟨.char (Nat.digitChar n), [], ?_, ?_⟩
      · rw [natural, Nat.toDigits_of_lt_base hs]
        rfl
      · intro he
        exact hall n hs h (CodePoint.char.inj he)
    · obtain ⟨c, rest, hn, hc⟩ := ih (n / 10) (by omega) (by omega)
      refine ⟨c, rest ++ [.char (Nat.digitChar (n % 10))], ?_, hc⟩
      rw [natural] at hn ⊢
      rw [Nat.toDigits_of_base_le (by decide) (by omega), List.map_append, hn]
      rfl

namespace Json

/-! ## Where a number ends -/

/-- Whether a text adds nothing to a number in front of it. -/
def EndsNumber (t : Text) : Prop :=
  ∀ c ∈ t.head?, c.isDigit = false ∧ c ≠ .char '.' ∧ c ≠ .char 'e' ∧ c ≠ .char 'E'

theorem endsNumber_nil : EndsNumber [] := by
  intro c hc
  exact absurd hc (by simp)

theorem endsNumber_newLine (t : Text) : EndsNumber (.char '\n' :: t) := by
  intro c hc
  obtain rfl := Option.some.inj hc
  decide

theorem endsNumber_comma (t : Text) : EndsNumber (.char ',' :: t) := by
  intro c hc
  obtain rfl := Option.some.inj hc
  decide

theorem EndsNumber.readFraction {t : Text} (h : EndsNumber t) : readFraction t = none := by
  unfold Json.readFraction
  split
  · exact absurd rfl (h _ rfl).2.1
  · rfl

theorem EndsNumber.readExponent {t : Text} (h : EndsNumber t) : readExponent t = none := by
  cases t with
  | nil => rfl
  | cons c t =>
    obtain ⟨-, -, he, hE⟩ := h c rfl
    rw [Json.readExponent, if_neg (by simp [he, hE])]

/-! ## Digits -/

/-- Whether a text adds no digit to those in front of it. -/
def EndsDigits (t : Text) : Prop := ∀ c ∈ t.head?, c.isDigit = false

theorem EndsNumber.endsDigits {t : Text} (h : EndsNumber t) : EndsDigits t := fun c hc => (h c hc).1

theorem endsDigits_cons {c : CodePoint} (hc : c.isDigit = false) (t : Text) : EndsDigits (c :: t) := by
  intro c' hc'
  obtain rfl := Option.some.inj hc'
  exact hc

theorem takeWhile_digits {ds rest : Text} (hd : ∀ c ∈ ds, c.isDigit = true) (hr : EndsDigits rest) :
    (ds ++ rest).takeWhile CodePoint.isDigit = ds := by
  rw [List.takeWhile_append_of_pos hd]
  cases rest with
  | nil => simp
  | cons c rest => simp [hr c rfl]

theorem dropWhile_digits {ds rest : Text} (hd : ∀ c ∈ ds, c.isDigit = true) (hr : EndsDigits rest) :
    (ds ++ rest).dropWhile CodePoint.isDigit = rest := by
  rw [List.dropWhile_append_of_pos hd]
  cases rest with
  | nil => rfl
  | cons c rest => simp [hr c rfl]

theorem readWhole_digits {c : CodePoint} {ds rest : Text} (hc : c ≠ .char '0')
    (hd : ∀ a ∈ c :: ds, a.isDigit = true) (hr : EndsDigits rest) :
    readWhole (c :: ds ++ rest) = some (c :: ds, rest) := by
  obtain ⟨hcd, hds⟩ := List.forall_mem_cons.1 hd
  rw [List.cons_append, readWhole, if_pos hcd, takeWhile_digits hds hr, dropWhile_digits hds hr]
  simpa using hc

/-! ## Whole numbers -/

theorem readWhole_natural (n : Nat) {rest : Text} (h : EndsNumber rest) :
    readWhole (natural n ++ rest) = some (natural n, rest) := by
  rcases Nat.eq_zero_or_pos n with rfl | hn
  · rfl
  · obtain ⟨c, ds, he, hc, hd, hds⟩ := natural_of_pos hn
    rw [he]
    exact readWhole_digits hc (List.forall_mem_cons.2 ⟨hd, hds⟩) h.endsDigits

theorem readUnsigned_natural (negative : Bool) {n : Nat} (hl : (natural n).length ≤ digitLimit)
    {rest : Text} (h : EndsNumber rest) :
    readUnsigned negative (natural n ++ rest) =
      .ok (.int (if negative then -(n : Int) else n), rest) := by
  have hlong : ¬ digitLimit < (natural n).length := Nat.not_lt.mpr hl
  simp [readUnsigned, readWhole_natural n h, h.readFraction, h.readExponent, hlong,
    ofDigits_natural]

/-! ## Words -/

/-- No word starts with a digit. -/
theorem readScalar_of_digit {c : CodePoint} (h : c.isDigit = true) (t : Text) :
    readScalar (c :: t) = readUnsigned false (c :: t) := by
  have hne : ∀ d : CodePoint, d.isDigit = false → d ≠ c := by
    rintro d hd rfl
    rw [h] at hd
    exact Bool.noConfusion hd
  have hw : (words.findSome? fun w => (skipWord w.1 (c :: t)).map fun rest => (w.2, rest)) = none := by
    simp [words, skipWord, String.text, hne (.char 'n') rfl, hne (.char 't') rfl,
      hne (.char 'f') rfl, hne (.char 'N') rfl, hne (.char 'I') rfl, hne (.char '-') rfl]
  rw [readScalar, hw]
  intro rest he
  exact hne (.char '-') rfl (List.cons.inj he).1.symm

/-- The only word behind a minus is `Infinity`. -/
theorem readScalar_minus {c : CodePoint} (h : c.isDigit = true) (t : Text) :
    readScalar (.char '-' :: c :: t) = readUnsigned true (c :: t) := by
  have hne : CodePoint.char 'I' ≠ c := by rintro rfl; exact absurd h (by decide)
  have hw : (words.findSome? fun w =>
      (skipWord w.1 (.char '-' :: c :: t)).map fun rest => (w.2, rest)) = none := by
    simp [words, skipWord, String.text, hne]
  rw [readScalar, hw]

theorem readScalar_null (rest : Text) : readScalar ("null".text ++ rest) = .ok (.null, rest) := by
  simp [readScalar, words, skipWord, String.text]

theorem readScalar_bool (b : Bool) (rest : Text) :
    readScalar ((if b then "true".text else "false".text) ++ rest) = .ok (.bool b, rest) := by
  cases b <;> simp [readScalar, words, skipWord, String.text]

/-! ## Reading back -/

theorem natural_cons (n : Nat) : ∃ c rest, natural n = c :: rest ∧ c.isDigit = true := by
  cases h : natural n with
  | nil => exact absurd h (natural_ne_nil n)
  | cons c rest => exact ⟨c, rest, rfl, isDigit_of_mem_natural (h ▸ List.mem_cons_self)⟩

/-- **A written whole number reads back.** -/
theorem readScalar_integer {i : Int} (hl : (natural i.natAbs).length ≤ digitLimit) {rest : Text}
    (h : EndsNumber rest) : readScalar (integer i ++ rest) = .ok (.int i, rest) := by
  cases i with
  | ofNat n =>
    obtain ⟨c, ds, he, hc⟩ := natural_cons n
    have hread := readUnsigned_natural false hl h
    simp only [Int.natAbs_ofNat', integer] at hread ⊢
    rw [he, List.cons_append] at hread ⊢
    rw [readScalar_of_digit hc, hread]
    rfl
  | negSucc n =>
    obtain ⟨c, ds, he, hc⟩ := natural_cons (n + 1)
    have hread := readUnsigned_natural true hl h
    simp only [Int.natAbs_negSucc, integer] at hread ⊢
    rw [he, List.cons_append] at hread
    rw [he, List.cons_append, List.cons_append, readScalar_minus hc, hread]
    rfl

end Json

/-- The text of a binary number is read as that number. -/
def Binary64.ReadsBack (x : Binary64) : Prop :=
  ∀ rest, Json.EndsNumber rest → Json.readScalar (Json.writeFloat x ++ rest) = .ok (.float x, rest)

end SearchQuery
