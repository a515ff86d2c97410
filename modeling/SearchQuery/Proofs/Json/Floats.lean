import Mathlib.Data.List.TakeWhile
import SearchQuery.Proofs.Decimal.Shortest
import SearchQuery.Proofs.Json.Numbers

/-!
# Binary numbers read back

**Theorem (`Canonical.readsBack`).** The text of a canonical binary number is read as that number.

The digits of a decimal are written without the zeros at their end, and the point, further zeros
and an exponent say where they stand. `ReadsAs` says of a text which value it has as a number; the
four layouts have the value of the decimal that they lay out (`readsAs_layout`). As a number is
rounded by its value alone, the text is then read as what the decimal is rounded to.
-/

namespace SearchQuery

/-! ## Zeros around digits -/

theorem ofDigits_append_zeros (t : Text) (k : ℕ) :
    ofDigits (t ++ List.replicate k (.char '0')) = ofDigits t * 10 ^ k := by
  induction k with
  | zero => simp
  | succ k ih =>
    have hzero : digitValue (.char '0') = 0 := rfl
    rw [List.replicate_succ', ← List.append_assoc, ofDigits, List.foldl_append, ← ofDigits, ih,
      List.foldl_cons, List.foldl_nil, hzero, pow_succ]
    ring

theorem ofDigits_zeros_append (k : ℕ) (t : Text) :
    ofDigits (List.replicate k (.char '0') ++ t) = ofDigits t := by
  induction k with
  | zero => rfl
  | succ k ih =>
    rw [List.replicate_succ, List.cons_append, ← ih]
    rfl

namespace Decimal

/-- The digits that are written start with one that is not zero, and stand for the whole value. -/
theorem significant_spec {d : Decimal} (hd : 0 < d.digits) :
    ∃ c r, d.significant = c :: r ∧ c ≠ .char '0' ∧ (∀ a ∈ c :: r, a.isDigit = true) ∧
      (ofDigits (c :: r) : ℚ) * 10 ^ (d.point - (c :: r).length) = d.digits * 10 ^ d.exponent := by
  -- Only zeros are cut off, and the point counts them.
  obtain ⟨k, hk⟩ : ∃ k, natural d.digits = d.significant ++ List.replicate k (.char '0') := by
    refine ⟨((natural d.digits).reverse.takeWhile (· == .char '0')).length, ?_⟩
    have hzeros : (natural d.digits).reverse.takeWhile (· == .char '0') =
        List.replicate _ (.char '0') :=
      List.eq_replicate_of_mem fun a ha => by simpa using List.mem_takeWhile_imp ha
    have hsplit := congrArg List.reverse
      (List.takeWhile_append_dropWhile (p := (· == CodePoint.char '0')) (l := (natural d.digits).reverse))
    rw [List.reverse_append, List.reverse_reverse, hzeros, List.reverse_replicate] at hsplit
    exact hsplit.symm
  obtain ⟨c, rest, hn, hc, hcd, hrd⟩ := natural_of_pos hd
  cases hs : d.significant with
  | nil =>
    rw [hn, hs, List.nil_append] at hk
    have hm : c ∈ List.replicate k (CodePoint.char '0') := hk ▸ List.mem_cons_self
    exact absurd (List.eq_of_mem_replicate hm) hc
  | cons c' r =>
    rw [hs] at hk
    have hcons := hn.symm.trans hk
    rw [List.cons_append] at hcons
    obtain ⟨rfl, hrest⟩ := List.cons.inj hcons
    have hpoint : d.point - (c :: r).length = k + d.exponent := by
      rw [point, hk, List.length_append, List.length_replicate]
      push_cast
      ring
    have hdigits : d.digits = ofDigits (c :: r) * 10 ^ k := by
      rw [← ofDigits_append_zeros, ← hk, ofDigits_natural]
    refine ⟨c, r, rfl, hc, ?_, ?_⟩
    · intro a ha
      have hm : a ∈ natural d.digits := by
        rw [hk]
        exact List.mem_append_left _ ha
      exact isDigit_of_mem_natural hm
    · rw [hpoint, hdigits, zpow_add₀ (by norm_num), zpow_natCast]
      push_cast
      ring

end Decimal

namespace Json

/-! ## Parts of a number -/

theorem readFraction_digits {ds rest : Text} (hne : ds ≠ []) (hd : ∀ a ∈ ds, a.isDigit = true)
    (hr : EndsDigits rest) : readFraction (.char '.' :: (ds ++ rest)) = some (ds, rest) := by
  rw [readFraction, takeWhile_digits hd hr, dropWhile_digits hd hr]
  exact if_neg hne

theorem readFraction_of_ne {c : CodePoint} (hc : c ≠ .char '.') (t : Text) :
    readFraction (c :: t) = none := by
  rw [readFraction]
  rintro rest h
  exact hc (List.cons.inj h).1

theorem readExponent_exponentText (e : ℤ) {rest : Text} (hr : EndsDigits rest) :
    readExponent (Decimal.exponentText e ++ rest) = some (e, rest) := by
  have hdigits : ∀ c ∈ natural e.natAbs, c.isDigit = true := fun c hc => isDigit_of_mem_natural hc
  -- The size of the exponent, of which one digit alone has a zero in front.
  obtain ⟨size, hsize, hne, hd, hvalue⟩ : ∃ size, Decimal.exponentText e =
      .char 'e' :: (if e < 0 then .char '-' else .char '+') :: size ∧ size ≠ [] ∧
      (∀ c ∈ size, c.isDigit = true) ∧ ofDigits size = e.natAbs := by
    by_cases hlength : (natural e.natAbs).length < 2
    · refine ⟨.char '0' :: natural e.natAbs, ?_, List.cons_ne_nil _ _,
        List.forall_mem_cons.2 ⟨rfl, hdigits⟩, ?_⟩
      · simp only [Decimal.exponentText, if_pos hlength]
      · exact (ofDigits_zeros_append 1 _).trans (ofDigits_natural _)
    · refine ⟨natural e.natAbs, ?_, natural_ne_nil _, hdigits, ofDigits_natural _⟩
      simp only [Decimal.exponentText, if_neg hlength]
  rw [hsize]
  by_cases he : e < 0
  · have hsign : readSign (.char '-' :: (size ++ rest)) = (true, size ++ rest) := rfl
    have habs : -(ofDigits size : ℤ) = e := by omega
    simp only [if_pos he, List.cons_append, readExponent, true_or, if_true, hsign,
      takeWhile_digits hd hr, dropWhile_digits hd hr, if_neg hne, habs]
  · have hsign : readSign (.char '+' :: (size ++ rest)) = (false, size ++ rest) := rfl
    have habs : (ofDigits size : ℤ) = e := by omega
    simp only [if_neg he, List.cons_append, readExponent, true_or, if_true, hsign,
      takeWhile_digits hd hr, dropWhile_digits hd hr, if_neg hne, habs]
    rfl

/-! ## Layouts -/

/-- A text stands for a value, in front of whatever does not go on with it. -/
def ReadsAs (t : Text) (q : ℚ) : Prop :=
  ∀ negative rest, EndsNumber rest → ∃ digits exponent,
    readUnsigned negative (t ++ rest) = .ok (.float (.nearest negative digits exponent), rest) ∧
      (digits : ℚ) * 10 ^ exponent = q

theorem readsAs_fraction (whole : Text) {places : Text} (hne : places ≠ [])
    (hd : ∀ c ∈ places, c.isDigit = true)
    (hw : ∀ rest, EndsDigits rest → readWhole (whole ++ rest) = some (whole, rest)) {q : ℚ}
    (hq : (ofDigits (whole ++ places) : ℚ) * 10 ^ (-(places.length : ℤ)) = q) :
    ReadsAs (whole ++ .char '.' :: places) q := by
  intro negative rest hr
  refine ⟨ofDigits (whole ++ places), -(places.length : ℤ), ?_, hq⟩
  have hfraction := readFraction_digits hne hd hr.endsDigits
  have hexponent := hr.readExponent
  rw [List.append_assoc, List.cons_append, readUnsigned, hw _ (endsDigits_cons rfl _)]
  simp [hfraction, hexponent]

theorem readsAs_exponent {c : CodePoint} {places : Text} (hc : c ≠ .char '0')
    (hd : ∀ a ∈ c :: places, a.isDigit = true) (power : ℤ) {q : ℚ}
    (hq : (ofDigits (c :: places) : ℚ) * 10 ^ (power - places.length) = q) :
    ReadsAs (c :: (if places = [] then [] else .char '.' :: places) ++ Decimal.exponentText power)
      q := by
  intro negative rest hr
  refine ⟨ofDigits (c :: places), power - places.length, ?_, hq⟩
  obtain ⟨hcd, hpd⟩ := List.forall_mem_cons.1 hd
  have hexponent := readExponent_exponentText power hr.endsDigits
  have hends : EndsDigits (Decimal.exponentText power ++ rest) := endsDigits_cons rfl _
  -- One digit is written without a point.
  by_cases hne : places = []
  · subst hne
    have hwhole := readWhole_digits hc hd hends
    have hfraction : readFraction (Decimal.exponentText power ++ rest) = none :=
      readFraction_of_ne (by decide) _
    rw [if_pos rfl, List.append_assoc, readUnsigned, hwhole]
    simp [hfraction, hexponent]
  · have hends' : EndsDigits (.char '.' :: (places ++ (Decimal.exponentText power ++ rest))) :=
      endsDigits_cons rfl _
    have hwhole := readWhole_digits hc (List.forall_mem_singleton.2 hcd) hends'
    have hfraction := readFraction_digits hne hpd hends
    rw [if_neg hne, List.append_assoc]
    simp only [List.cons_append, List.nil_append] at hwhole ⊢
    rw [readUnsigned, hwhole]
    simp [hfraction, hexponent]

theorem readsAs_scientific {c : CodePoint} {r : Text} (hc : c ≠ .char '0')
    (hd : ∀ a ∈ c :: r, a.isDigit = true) (point : ℤ) :
    ReadsAs ((c :: r).take 1 ++
        (if (c :: r).length ≤ 1 then [] else .char '.' :: (c :: r).drop 1) ++
        Decimal.exponentText (point - 1))
      (ofDigits (c :: r) * 10 ^ (point - (c :: r).length)) := by
  have hif : (if (c :: r).length ≤ 1 then [] else CodePoint.char '.' :: (c :: r).drop 1) =
      if r = [] then [] else .char '.' :: r := by
    cases r <;> simp
  rw [hif]
  refine readsAs_exponent hc hd (point - 1) ?_
  congr 2
  rw [List.length_cons]
  push_cast
  ring

/-- Zeros between the point and the digits. -/
theorem readsAs_below_one {digits : Text} (hne : digits ≠ [])
    (hd : ∀ a ∈ digits, a.isDigit = true) {point : ℤ} (hp : point ≤ 0) :
    ReadsAs ("0.".text ++ List.replicate (-point).toNat (.char '0') ++ digits)
      (ofDigits digits * 10 ^ (point - digits.length)) := by
  have hzeros : ∀ a ∈ List.replicate (-point).toNat (CodePoint.char '0') ++ digits,
      a.isDigit = true := by
    intro a ha
    rcases List.mem_append.1 ha with ha | ha
    · rw [List.eq_of_mem_replicate ha]
      rfl
    · exact hd a ha
  rw [List.append_assoc]
  refine readsAs_fraction [.char '0'] (by simp [hne]) hzeros (fun _ _ => rfl) ?_
  -- Zeros in front do not change the value.
  have hvalue : ofDigits ([.char '0'] ++ (List.replicate (-point).toNat (.char '0') ++ digits)) =
      ofDigits digits :=
    (ofDigits_zeros_append 1 _).trans (ofDigits_zeros_append _ _)
  rw [hvalue, List.length_append, List.length_replicate]
  congr 2
  push_cast
  omega

/-- Zeros between the digits and the point, and one behind it. -/
theorem readsAs_whole {c : CodePoint} {r : Text} (hc : c ≠ .char '0')
    (hd : ∀ a ∈ c :: r, a.isDigit = true) {point : ℤ} (hp : ((c :: r).length : ℤ) ≤ point) :
    ReadsAs (c :: r ++ List.replicate (point.toNat - (c :: r).length) (.char '0') ++ ".0".text)
      (ofDigits (c :: r) * 10 ^ (point - (c :: r).length)) := by
  obtain ⟨k, hk⟩ : ∃ k : ℕ, point = (c :: r).length + k := ⟨(point - (c :: r).length).toNat, by omega⟩
  have hcount : point.toNat - (c :: r).length = k := by omega
  have hdigits : ∀ a ∈ c :: (r ++ List.replicate k (CodePoint.char '0')), a.isDigit = true := by
    intro a ha
    rw [← List.cons_append] at ha
    rcases List.mem_append.1 ha with ha | ha
    · exact hd a ha
    · rw [List.eq_of_mem_replicate ha]
      rfl
  rw [hcount]
  have hne : [CodePoint.char '0'] ≠ [] := List.cons_ne_nil _ _
  refine readsAs_fraction _ hne (List.forall_mem_singleton.2 rfl)
    (fun rest hr => readWhole_digits hc hdigits hr) ?_
  have hvalue : ofDigits (c :: (r ++ List.replicate k (.char '0')) ++ [.char '0']) =
      ofDigits (c :: r) * 10 ^ (k + 1) := by
    rw [← List.cons_append, List.append_assoc, ← List.replicate_succ', ofDigits_append_zeros]
  have hexponent : point - ((c :: r).length : ℤ) = k := by omega
  rw [hvalue, hexponent, pow_succ, zpow_natCast]
  simp
  ring

/-- The point among the digits. -/
theorem readsAs_among {c : CodePoint} {r : Text} (hc : c ≠ .char '0')
    (hd : ∀ a ∈ c :: r, a.isDigit = true) {point : ℤ} (hpos : 0 < point)
    (hp : point < (c :: r).length) :
    ReadsAs ((c :: r).take point.toNat ++ .char '.' :: (c :: r).drop point.toNat)
      (ofDigits (c :: r) * 10 ^ (point - (c :: r).length)) := by
  obtain ⟨k, rfl⟩ : ∃ k : ℕ, point = (k + 1 : ℕ) := ⟨point.toNat - 1, by omega⟩
  have hk : k < r.length := by
    rw [List.length_cons] at hp
    omega
  simp only [Int.toNat_natCast, List.take_succ_cons, List.drop_succ_cons]
  have hfront : ∀ a ∈ c :: r.take k, a.isDigit = true := by
    intro a ha
    exact hd a ((List.take_sublist (k + 1) (c :: r)).subset ha)
  have hback : ∀ a ∈ r.drop k, a.isDigit = true := fun a ha =>
    hd a (List.mem_cons_of_mem _ (List.mem_of_mem_drop ha))
  refine readsAs_fraction _ (by simpa using hk) hback
    (fun rest hr => readWhole_digits hc hfront hr) ?_
  rw [List.cons_append, List.take_append_drop, List.length_drop, List.length_cons]
  congr 2
  omega

/-- **Every layout of digits** stands for the digits and the place of the point. -/
theorem readsAs_layout {c : CodePoint} {r : Text} (hc : c ≠ .char '0')
    (hd : ∀ a ∈ c :: r, a.isDigit = true) (point : ℤ) :
    ReadsAs (Decimal.layout (c :: r) point)
      (ofDigits (c :: r) * 10 ^ (point - (c :: r).length)) := by
  rw [Decimal.layout]
  by_cases hfar : point ≤ -4 ∨ 16 < point
  · rw [if_pos hfar]
    exact readsAs_scientific hc hd point
  · rw [if_neg hfar]
    by_cases hbelow : point ≤ 0
    · rw [if_pos hbelow]
      exact readsAs_below_one (List.cons_ne_nil _ _) hd hbelow
    · rw [if_neg hbelow]
      by_cases hwhole : (c :: r).length ≤ point.toNat
      · rw [if_pos hwhole]
        exact readsAs_whole hc hd (by omega)
      · rw [if_neg hwhole]
        exact readsAs_among hc hd (by omega) (by omega)

/-! ## Numbers -/

theorem readUnsigned_shortest {negative : Bool} {s : ℕ} {e : ℤ}
    (h : (Binary64.finite negative s e).Canonical) (hs : 0 < s) {rest : Text}
    (hr : EndsNumber rest) :
    readUnsigned negative (Decimal.layout (Decimal.shortest s e).significant
      (Decimal.shortest s e).point ++ rest) = .ok (.float (.finite negative s e), rest) := by
  have hpos := Decimal.digits_shortest_pos h hs
  obtain ⟨c, r, hsig, hc, hd, hvalue⟩ := Decimal.significant_spec hpos
  obtain ⟨digits, exponent, hread, hq⟩ :=
    readsAs_layout hc hd (Decimal.shortest s e).point negative rest hr
  rw [hsig, hread, Binary64.nearest_congr negative hpos (hq.trans hvalue),
    Decimal.nearest_shortest h hs]

theorem readUnsigned_zero (negative : Bool) {rest : Text} (hr : EndsNumber rest) :
    readUnsigned negative ("0.0".text ++ rest) = .ok (.float (.zero negative), rest) := by
  have hvalue : (ofDigits [.char '0', .char '0'] : ℚ) * 10 ^ (-1 : ℤ) = 0 := by
    have hzero : ofDigits [.char '0', .char '0'] = 0 := rfl
    rw [hzero]
    simp
  have hne : [CodePoint.char '0'] ≠ [] := List.cons_ne_nil _ _
  obtain ⟨digits, exponent, hread, hq⟩ := readsAs_fraction [.char '0'] hne
    (List.forall_mem_singleton.2 rfl) (fun _ _ => rfl) hvalue negative rest hr
  have hdigits : digits = 0 := by
    have hten : (10 : ℚ) ^ exponent ≠ 0 := by positivity
    exact_mod_cast (mul_eq_zero.1 hq).resolve_right hten
  refine hread.trans ?_
  rw [hdigits, Binary64.nearest, if_pos (.inl rfl)]

theorem starts_of_readUnsigned {negative : Bool} {t : Text} {p : Json × Text}
    (h : readUnsigned negative t = .ok p) : ∃ c r, t = c :: r ∧ c.isDigit = true := by
  cases t with
  | nil => cases h
  | cons c r =>
    refine ⟨c, r, rfl, ?_⟩
    by_cases hc : c = .char '0'
    · rw [hc]
      rfl
    · by_contra hd
      rw [readUnsigned, readWhole, if_neg hd] at h
      · cases h
      · simpa using hc

theorem readScalar_dashIf {negative : Bool} {t : Text} {p : Json × Text}
    (h : readUnsigned negative t = .ok p) :
    readScalar (Binary64.write.dashIf negative ++ t) = .ok p := by
  obtain ⟨c, r, rfl, hc⟩ := starts_of_readUnsigned h
  cases negative with
  | false => exact (readScalar_of_digit hc r).trans h
  | true => exact (readScalar_minus hc r).trans h

end Json

/-- **The text of a canonical number** is read as that number. -/
theorem Binary64.Canonical.readsBack {x : Binary64} (h : x.Canonical) : x.ReadsBack := by
  intro rest hr
  cases x with
  | nan => simp [Json.readScalar, Json.words, Json.skipWord, Json.writeFloat, Binary64.write,
      String.text]
  | infinite negative =>
    cases negative <;> simp [Json.readScalar, Json.words, Json.skipWord, Json.writeFloat,
      Binary64.write, Binary64.write.dashIf, String.text]
  | finite negative s e =>
    rw [Json.writeFloat, Binary64.write, List.append_assoc]
    rcases Nat.eq_zero_or_pos s with rfl | hs
    · obtain ⟨-, -, -, rfl | hle⟩ := h
      · exact Json.readScalar_dashIf (Json.readUnsigned_zero negative hr)
      · exact absurd hle (by decide)
    · rw [if_neg hs.ne']
      exact Json.readScalar_dashIf (Json.readUnsigned_shortest h hs hr)

end SearchQuery
