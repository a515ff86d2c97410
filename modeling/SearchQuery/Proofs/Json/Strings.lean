import SearchQuery.Json.Printer
import SearchQuery.Json.Reader

/-!
# Strings read back

**Theorem (`readString_writeString`).** Behind its opening quote, a written string reads back as
the text with its halves joined, whatever follows.

A character above U+FFFF is written as two escapes, so the reader first meets `units`: the text
with every such character split. Joining the halves then undoes the splitting, and it cannot
pair a half of the text with one from a split character, because a split character starts with a
leading half and ends with a trailing one.

So exactly the texts with no pair of halves left in them (`Joined`) come back unchanged, and every
text of characters alone is one of them.
-/

namespace SearchQuery

/-- No leading half stands in front of a trailing one. -/
def Joined (t : Text) : Prop := Json.joinHalves t = t

instance (t : Text) : Decidable (Joined t) := inferInstanceAs (Decidable (_ = _))

/-- A text of characters alone. -/
def HalfFree (t : Text) : Prop := ∀ c ∈ t, ∃ ch : Char, c = .char ch

instance : ∀ c : CodePoint, Decidable (∃ ch : Char, c = .char ch)
  | .char ch => .isTrue ⟨ch, rfl⟩
  | .half _ => .isFalse fun ⟨_, h⟩ => nomatch h

instance (t : Text) : Decidable (HalfFree t) :=
  inferInstanceAs (Decidable (∀ c ∈ t, ∃ ch : Char, c = .char ch))

namespace Json

/-! ## Escapes by number -/

theorem hexValue?_digitChar {n : Nat} (h : n < 16) :
    hexValue? (.char (Nat.digitChar n)) = some n := by
  have all : ∀ m, m < 16 → hexValue? (.char (Nat.digitChar m)) = some m := by decide
  exact all n h

theorem hex4?_places {n : Nat} (h : n < 0x10000) :
    hex4? (.char (Nat.digitChar (n / Nat.pow 16 3 % 16))) (.char (Nat.digitChar (n / Nat.pow 16 2 % 16)))
      (.char (Nat.digitChar (n / Nat.pow 16 1 % 16))) (.char (Nat.digitChar (n / Nat.pow 16 0 % 16)))
      = some n := by
  have hplace : ∀ m, m % 16 < 16 := fun m => Nat.mod_lt _ (by decide)
  simp only [hex4?, hexValue?_digitChar (hplace _), Option.bind_eq_bind, Option.bind_some,
    Option.pure_def, Option.some.injEq, Nat.pow_eq]
  omega

theorem readPoints_unitEscape {n : Nat} (h : n < 0x10000) (rest : Text) :
    readPoints (unitEscape n ++ rest) =
      (readPoints rest).map fun p => (CodePoint.ofNat n :: p.1, p.2) := by
  simp only [unitEscape, fixedHex, List.cons_append, List.nil_append]
  rw [readPoints, hex4?_places h]
  cases readPoints rest <;> rfl

/-! ## Code points -/

/-- A code point as the reader meets it: two halves for a character above U+FFFF. -/
def units (c : CodePoint) : Text :=
  let n := c.toNat
  if n < 0x10000 then [c]
  else [.ofNat (0xD800 + (n - 0x10000) / 0x400), .ofNat (0xDC00 + (n - 0x10000) % 0x400)]

theorem toNat_lt (c : CodePoint) : c.toNat < 0x110000 := by
  cases c with
  | char c =>
    have hc := c.valid
    simp only [UInt32.isValidChar, Nat.isValidChar] at hc
    change c.toNat < 0xD800 ∨ 0xDFFF < c.toNat ∧ c.toNat < 0x110000 at hc
    rw [CodePoint.toNat_char]
    omega
  | half n =>
    have hn := n.isLt
    simp only [CodePoint.toNat, CodePoint.firstHalf]
    omega

theorem units_of_lt {c : CodePoint} (h : c.toNat < 0x10000) : units c = [c] := if_pos h

theorem units_half (n : Fin 0x800) : units (.half n) = [.half n] := by
  have hn := n.isLt
  refine units_of_lt ?_
  simp only [CodePoint.toNat, CodePoint.firstHalf]
  omega

/-- A letter behind a backslash stands for the code point that is written by it. -/
theorem readPoints_escapeLetter {c l : CodePoint} (h : escapeLetter? c = some l) (rest : Text) :
    readPoints (.char '\\' :: l :: rest) =
      (readPoints rest).map fun p => (units c ++ p.1, p.2) := by
  unfold escapeLetter? at h
  split at h
  case h_8 => simp at h
  all_goals
    obtain rfl := Option.some.inj h
    rw [readPoints]
    · cases readPoints rest <;> rfl
    · exact fun _ _ _ _ _ hu => absurd hu (by decide)

/-- What stands for itself is neither a control character, nor a quote, nor a backslash. -/
theorem readPoints_self {c : CodePoint} (h : escapeLetter? c = none) (hc : 0x20 ≤ c.toNat)
    (rest : Text) :
    readPoints (c :: rest) = (readPoints rest).map fun p => (c :: p.1, p.2) := by
  have hq : c ≠ .char '"' := by rintro rfl; simp [escapeLetter?] at h
  have hb : c ≠ .char '\\' := by rintro rfl; simp [escapeLetter?] at h
  rw [readPoints, if_neg (by simp [hb]; omega)]
  · cases readPoints rest <;> rfl
  · simpa using hq
  · simp [hb]
  · simp [hb]

theorem readPoints_writePoint (c : CodePoint) (rest : Text) :
    readPoints (writePoint c ++ rest) =
      (readPoints rest).map fun p => (units c ++ p.1, p.2) := by
  have hlt := toNat_lt c
  rw [writePoint]
  cases hl : escapeLetter? c with
  | some l => exact readPoints_escapeLetter hl rest
  | none =>
    simp only
    by_cases hv : 0x20 ≤ c.toNat ∧ c.toNat < 0x7F
    · rw [if_pos hv, List.singleton_append, readPoints_self hl hv.1, units_of_lt (by omega)]
      rfl
    · rw [if_neg hv]
      by_cases hn : c.toNat < 0x10000
      · rw [if_pos hn, readPoints_unitEscape hn, units_of_lt hn, CodePoint.ofNat_toNat]
        rfl
      · rw [if_neg hn, List.append_assoc, readPoints_unitEscape (by omega),
          readPoints_unitEscape (by omega), units, if_neg hn]
        cases readPoints rest <;> rfl

theorem readPoints_flatMap_writePoint (t rest : Text) :
    readPoints (t.flatMap writePoint ++ .char '"' :: rest) = some (t.flatMap units, rest) := by
  induction t with
  | nil => rfl
  | cons c t ih =>
    rw [List.flatMap_cons, List.append_assoc, readPoints_writePoint, ih]
    rfl

/-! ## Joining undoes splitting -/

theorem ofNat_half {n : Nat} (h : n < 0x800) : CodePoint.ofNat (0xD800 + n) = .half ⟨n, h⟩ := by
  have hr : CodePoint.firstHalf ≤ 0xD800 + n ∧ 0xD800 + n < CodePoint.firstHalf + 0x800 := by
    simp only [CodePoint.firstHalf]
    omega
  rw [CodePoint.ofNat, dif_pos hr]
  simp [CodePoint.firstHalf]

/-- The halves of a character above U+FFFF. -/
theorem units_of_ge {c : Char} (h : ¬ c.toNat < 0x10000) :
    ∃ lead trail : Fin 0x800, lead.val < 0x400 ∧ 0x400 ≤ trail.val ∧
      units (.char c) = [.half lead, .half trail] ∧
      0x10000 + lead.val * 0x400 + (trail.val - 0x400) = c.toNat := by
  have hlt := toNat_lt (.char c)
  rw [CodePoint.toNat_char] at hlt
  refine ⟨⟨(c.toNat - 0x10000) / 0x400, by omega⟩, ⟨0x400 + (c.toNat - 0x10000) % 0x400, by omega⟩,
    by show _ / _ < _; omega, Nat.le_add_right _ _, ?_, by simp only; omega⟩
  have hu : units (.char c) = [.ofNat (0xD800 + (c.toNat - 0x10000) / 0x400),
      .ofNat (0xDC00 + (c.toNat - 0x10000) % 0x400)] := if_neg h
  rw [hu, ofNat_half (by omega),
    show 0xDC00 + (c.toNat - 0x10000) % 0x400 = 0xD800 + (0x400 + (c.toNat - 0x10000) % 0x400) by
      omega,
    ofNat_half (by omega)]

theorem joinHalves_units_char (c : Char) (t : Text) :
    joinHalves (units (.char c) ++ t) = .char c :: joinHalves t := by
  by_cases h : c.toNat < 0x10000
  · have hu : units (.char c) = [.char c] := units_of_lt h
    rw [hu]
    exact joinHalves_char c t
  · obtain ⟨lead, trail, hl, ht, hu, hn⟩ := units_of_ge h
    rw [hu, List.cons_append, List.cons_append, List.nil_append, joinHalves, if_pos ⟨hl, ht⟩, hn,
      Char.ofNat_toNat]

/-- The units of a character do not start with a trailing half, so no half pairs with them. -/
theorem joinHalves_half_units_char (n : Fin 0x800) (c : Char) (t : Text) :
    joinHalves (.half n :: (units (.char c) ++ t)) =
      .half n :: joinHalves (units (.char c) ++ t) := by
  by_cases h : c.toNat < 0x10000
  · have hu : units (.char c) = [.char c] := units_of_lt h
    rw [hu, List.singleton_append, joinHalves]
    simp
  · obtain ⟨lead, trail, hl, -, hu, -⟩ := units_of_ge h
    rw [hu, List.cons_append, List.cons_append, List.nil_append, joinHalves, if_neg (by omega)]

theorem joinHalves_flatMap_units (t : Text) : joinHalves (t.flatMap units) = joinHalves t := by
  fun_induction joinHalves t with
  | case1 n m rest hpair ih =>
    rw [List.flatMap_cons, List.flatMap_cons, units_half, units_half, List.singleton_append,
      List.singleton_append, joinHalves, if_pos hpair, ih]
  | case2 n m rest hpair ih =>
    rw [List.flatMap_cons, units_half] at ih
    rw [List.flatMap_cons, List.flatMap_cons, units_half, units_half, List.singleton_append,
      List.singleton_append, joinHalves, if_neg hpair]
    rw [List.singleton_append] at ih
    rw [ih]
  | case3 c rest hnext ih =>
    cases c with
    | char c => rw [List.flatMap_cons, joinHalves_units_char, ih]
    | half n =>
      rw [List.flatMap_cons, units_half, List.singleton_append]
      cases rest with
      | nil => rfl
      | cons d rest =>
        cases d with
        | half m => exact absurd rfl (hnext n m rest rfl)
        | char d =>
          rw [List.flatMap_cons] at ih ⊢
          -- A character never starts with a second half, not even where it is written as two.
          rw [joinHalves_half_units_char, ih]
  | case4 => rfl

/-- **A written string reads back** as the text with its halves joined. -/
theorem readString_writeString (t rest : Text) :
    readString (t.flatMap writePoint ++ .char '"' :: rest) = some (joinHalves t, rest) := by
  rw [readString, readPoints_flatMap_writePoint, Option.map_some, joinHalves_flatMap_units]

end Json

theorem HalfFree.joined {t : Text} (h : HalfFree t) : Joined t := by
  induction t with
  | nil => rfl
  | cons c t ih =>
    obtain ⟨ch, rfl⟩ := h c List.mem_cons_self
    have ht : Json.joinHalves t = t := ih fun d hd => h d (List.mem_cons_of_mem _ hd)
    rw [Joined, Json.joinHalves_char, ht]

end SearchQuery
