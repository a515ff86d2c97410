import Mathlib.Algebra.Order.Field.Power
import Mathlib.Data.Rat.Cast.Order
import Mathlib.Tactic.FieldSimp
import Mathlib.Tactic.Linarith
import Mathlib.Tactic.Positivity
import Mathlib.Tactic.Ring
import SearchQuery.Decimal.Shortest

/-!
# Rounding by value

**Theorem (`nearest_of_value`).** A decimal with the value of a binary number is rounded to that
number, however the decimal spells the value.

Which binary number a quotient is rounded to depends on nothing but its value (`ofQuotient_congr`).
The exponent is the only one that `Fits` the value: with it the significand has 53 bits, or it is
the least exponent and the significand has fewer. The places of a decimal, by which values far out
of range are told, are those of its value as well (`places_congr`).

`Canonical` says which significands and exponents occur: every rounded number has them
(`canonical_nearest`).
-/

namespace SearchQuery

/-- Of the two natural powers that stand for a power with a whole exponent, one is 1. -/
theorem pow_toNat {b : ℕ} (hb : b ≠ 0) (e : ℤ) :
    (b : ℚ) ^ e.toNat = (b : ℚ) ^ e * (b : ℚ) ^ (-e).toNat := by
  have hb' : (b : ℚ) ≠ 0 := Nat.cast_ne_zero.2 hb
  rcases Int.le_total 0 e with h | h
  · obtain ⟨n, rfl⟩ := Int.eq_ofNat_of_zero_le h
    simp
  · obtain ⟨n, hn⟩ := Int.eq_ofNat_of_zero_le (Int.neg_nonneg.2 h)
    obtain rfl : e = -(n : ℤ) := by omega
    simp [hb']

/-! ## Rounded quotients -/

theorem roundedQuotient_mul_right {c : ℕ} (hc : 0 < c) (num den : ℕ) :
    roundedQuotient (num * c) (den * c) = roundedQuotient num den := by
  have hlt : 2 * (num * c % (den * c)) < den * c ↔ 2 * (num % den) < den := by
    rw [Nat.mul_mod_mul_right, ← Nat.mul_assoc, Nat.mul_lt_mul_right hc]
  have hgt : den * c < 2 * (num * c % (den * c)) ↔ den < 2 * (num % den) := by
    rw [Nat.mul_mod_mul_right, ← Nat.mul_assoc, Nat.mul_lt_mul_right hc]
  simp only [roundedQuotient, Nat.mul_div_mul_right _ _ hc, hlt, hgt]

theorem roundedQuotient_congr {num den num' den' : ℕ} (hd : 0 < den) (hd' : 0 < den')
    (h : num * den' = num' * den) : roundedQuotient num den = roundedQuotient num' den' := by
  calc roundedQuotient num den
      = roundedQuotient (num * den') (den * den') := (roundedQuotient_mul_right hd' num den).symm
    _ = roundedQuotient (num' * den) (den' * den) := by rw [h, Nat.mul_comm den den']
    _ = roundedQuotient num' den' := roundedQuotient_mul_right hd num' den'

theorem roundedQuotient_mul {den : ℕ} (hd : 0 < den) (n : ℕ) :
    roundedQuotient (n * den) den = n := by
  simp [roundedQuotient, Nat.mul_div_cancel _ hd, hd]

theorem le_roundedQuotient {n num den : ℕ} (hd : 0 < den) (h : n * den ≤ num) :
    n ≤ roundedQuotient num den := by
  have hq : n ≤ num / den := (Nat.le_div_iff_mul_le hd).2 h
  simp only [roundedQuotient]
  split_ifs <;> omega

theorem roundedQuotient_le {n num den : ℕ} (hd : 0 < den) (h : num < n * den) :
    roundedQuotient num den ≤ n := by
  have hq : num / den < n := (Nat.div_lt_iff_lt_mul hd).2 h
  simp only [roundedQuotient]
  split_ifs <;> omega

namespace Binary64

/-! ## Exponents -/

/-- With the exponent a value has a significand of 53 bits, or of fewer where the exponent is the
least. -/
structure Fits (q : ℚ) (e : ℤ) : Prop where
  least : leastExponent ≤ e
  lt : q < 2 ^ 53 * 2 ^ e
  le : e = leastExponent ∨ 2 ^ 52 * 2 ^ e ≤ q

theorem Fits.le_of_fits {q : ℚ} {e e' : ℤ} (h : Fits q e) (h' : Fits q e') : e ≤ e' := by
  rcases h.le with he | he
  · rw [he]
    exact h'.least
  · have hlt : (2 : ℚ) ^ (52 + e) < 2 ^ (53 + e') := by
      rw [zpow_add₀ two_ne_zero, zpow_add₀ two_ne_zero]
      exact lt_of_le_of_lt he h'.lt
    have := (zpow_lt_zpow_iff_right₀ one_lt_two).1 hlt
    omega

/-- At most one exponent fits. -/
theorem Fits.unique {q : ℚ} {e e' : ℤ} (h : Fits q e) (h' : Fits q e') : e = e' :=
  le_antisymm (h.le_of_fits h') (h'.le_of_fits h)

/-- A scaled quotient is compared like the quotient itself. -/
theorem scaled_lt_iff {den : ℕ} (hd : 0 < den) (num c : ℕ) (e : ℤ) :
    num * Nat.pow 2 (-e).toNat < den * Nat.pow 2 e.toNat * c ↔ (num : ℚ) / den < c * 2 ^ e := by
  have hd' : (0 : ℚ) < den := Nat.cast_pos.2 hd
  have hp : (0 : ℚ) < 2 ^ (-e).toNat := by positivity
  have hpow : (2 : ℚ) ^ e.toNat = 2 ^ e * 2 ^ (-e).toNat := pow_toNat (b := 2) two_ne_zero e
  have hmul : (den : ℚ) * (2 ^ e * 2 ^ (-e).toNat) * c = c * 2 ^ e * den * 2 ^ (-e).toNat := by ring
  rw [← Nat.cast_lt (α := ℚ), div_lt_iff₀ hd']
  simp only [Nat.pow_eq, Nat.cast_mul, Nat.cast_pow, Nat.cast_ofNat]
  rw [hpow, hmul, mul_lt_mul_iff_of_pos_right hp]

/-- The logarithms give the exponent of a quotient, or the one above it. -/
theorem quotient_bounds {num den : ℕ} (hn : 0 < num) (hd : 0 < den) {e : ℤ}
    (he : e = (num.log2 : ℤ) - den.log2 - 52) :
    (2 : ℚ) ^ 51 * 2 ^ e < num / den ∧ (num : ℚ) / den < 2 ^ 53 * 2 ^ e := by
  have hd' : (0 : ℚ) < den := Nat.cast_pos.2 hd
  have hpow : (0 : ℚ) < 2 ^ e := by positivity
  have hnum : (2 : ℚ) ^ num.log2 ≤ num := by exact_mod_cast Nat.log2_self_le hn.ne'
  have hnum' : (num : ℚ) < 2 ^ (num.log2 + 1) := by exact_mod_cast Nat.lt_log2_self
  have hden : (2 : ℚ) ^ den.log2 ≤ den := by exact_mod_cast Nat.log2_self_le hd.ne'
  have hden' : (den : ℚ) < 2 ^ (den.log2 + 1) := by exact_mod_cast Nat.lt_log2_self
  have hlow : (2 : ℚ) ^ 51 * 2 ^ e * 2 ^ (den.log2 + 1) = 2 ^ num.log2 := by
    rw [← zpow_natCast, ← zpow_natCast, ← zpow_natCast, ← zpow_add₀ two_ne_zero,
      ← zpow_add₀ two_ne_zero]
    congr 1
    push_cast
    omega
  have hhigh : (2 : ℚ) ^ 53 * 2 ^ e * 2 ^ den.log2 = 2 ^ (num.log2 + 1) := by
    rw [← zpow_natCast, ← zpow_natCast, ← zpow_natCast, ← zpow_add₀ two_ne_zero,
      ← zpow_add₀ two_ne_zero]
    congr 1
    push_cast
    omega
  rw [lt_div_iff₀ hd', div_lt_iff₀ hd']
  constructor
  · calc (2 : ℚ) ^ 51 * 2 ^ e * den < 2 ^ 51 * 2 ^ e * 2 ^ (den.log2 + 1) := by gcongr
      _ = 2 ^ num.log2 := hlow
      _ ≤ num := hnum
  · calc (num : ℚ) < 2 ^ (num.log2 + 1) := hnum'
      _ = 2 ^ 53 * 2 ^ e * 2 ^ den.log2 := hhigh.symm
      _ ≤ 2 ^ 53 * 2 ^ e * den := by gcongr

theorem fits_exponentOf {num den : ℕ} (hn : 0 < num) (hd : 0 < den) :
    Fits ((num : ℚ) / den) (exponentOf num den) := by
  obtain ⟨hlow, hhigh⟩ := quotient_bounds hn hd rfl
  have hpow : ∀ e : ℤ, (2 : ℚ) ^ (e - 1) = 2 ^ e / 2 := fun e => by
    rw [zpow_sub_one₀ two_ne_zero, div_eq_mul_inv]
  -- The estimate of the exponent is exact, or one too high.
  have hexact : ∃ x : ℤ, exponentOf num den = max x leastExponent ∧
      (2 : ℚ) ^ 52 * 2 ^ x ≤ num / den ∧ (num : ℚ) / den < 2 ^ 53 * 2 ^ x := by
    have hscaled := scaled_lt_iff hd num (Nat.pow 2 52) ((num.log2 : ℤ) - den.log2 - 52)
    have hcast : ((Nat.pow 2 52 : ℕ) : ℚ) = 2 ^ 52 := by norm_num
    rw [hcast] at hscaled
    by_cases h : (num : ℚ) / den < 2 ^ 52 * 2 ^ ((num.log2 : ℤ) - den.log2 - 52)
    · refine ⟨_, by rw [exponentOf, if_pos (hscaled.2 h)], ?_, ?_⟩
      · rw [hpow]
        linarith
      · rw [hpow]
        linarith
    · exact ⟨_, by rw [exponentOf, if_neg (h ∘ hscaled.1)], not_lt.1 h, hhigh⟩
  obtain ⟨x, hx, hle, hlt⟩ := hexact
  rw [hx]
  rcases le_total leastExponent x with h | h
  · rw [max_eq_left h]
    exact ⟨h, hlt, .inr hle⟩
  · rw [max_eq_right h]
    refine ⟨le_rfl, hlt.trans_le ?_, .inl rfl⟩
    have : (2 : ℚ) ^ x ≤ 2 ^ leastExponent := zpow_le_zpow_right₀ one_le_two h
    linarith

/-! ## Significands -/

theorem scaledQuotient_le {num den : ℕ} (hd : 0 < den) {e : ℤ} (h : Fits ((num : ℚ) / den) e) :
    scaledQuotient num den e ≤ 2 ^ 53 := by
  have hpos : 0 < den * Nat.pow 2 e.toNat := Nat.mul_pos hd (Nat.pow_pos (by decide))
  refine roundedQuotient_le hpos ?_
  rw [Nat.mul_comm (2 ^ 53), scaled_lt_iff hd]
  exact_mod_cast h.lt

theorem le_scaledQuotient {num den : ℕ} (hd : 0 < den) {e : ℤ} (h : Fits ((num : ℚ) / den) e) :
    e = leastExponent ∨ 2 ^ 52 ≤ scaledQuotient num den e := by
  have hpos : 0 < den * Nat.pow 2 e.toNat := Nat.mul_pos hd (Nat.pow_pos (by decide))
  refine h.le.imp_right fun hle => le_roundedQuotient hpos ?_
  rw [Nat.mul_comm (2 ^ 52), ← not_lt, scaled_lt_iff hd, not_lt]
  exact_mod_cast hle

theorem scaledQuotient_congr {num den num' den' : ℕ} (hd : 0 < den) (hd' : 0 < den')
    (h : (num : ℚ) / den = num' / den') (e : ℤ) :
    scaledQuotient num den e = scaledQuotient num' den' e := by
  have hcross : num * den' = num' * den := by
    have hd₀ : (den : ℚ) ≠ 0 := Nat.cast_ne_zero.2 hd.ne'
    have hd₀' : (den' : ℚ) ≠ 0 := Nat.cast_ne_zero.2 hd'.ne'
    exact_mod_cast (div_eq_div_iff hd₀ hd₀').1 h
  have hpow : 0 < Nat.pow 2 e.toNat := Nat.pow_pos (by decide)
  refine roundedQuotient_congr (Nat.mul_pos hd hpow) (Nat.mul_pos hd' hpow) ?_
  calc num * Nat.pow 2 (-e).toNat * (den' * Nat.pow 2 e.toNat)
      = num * den' * (Nat.pow 2 (-e).toNat * Nat.pow 2 e.toNat) := by ac_rfl
    _ = num' * den * (Nat.pow 2 (-e).toNat * Nat.pow 2 e.toNat) := by rw [hcross]
    _ = num' * Nat.pow 2 (-e).toNat * (den * Nat.pow 2 e.toNat) := by ac_rfl

theorem scaledQuotient_of_eq {num den s : ℕ} (hd : 0 < den) {e : ℤ}
    (h : (num : ℚ) / den = s * 2 ^ e) : scaledQuotient num den e = s := by
  have hpos : 0 < den * Nat.pow 2 e.toNat := Nat.mul_pos hd (Nat.pow_pos (by decide))
  have hd' : (den : ℚ) ≠ 0 := Nat.cast_ne_zero.2 hd.ne'
  have hpow : (2 : ℚ) ^ e.toNat = 2 ^ e * 2 ^ (-e).toNat := pow_toNat (b := 2) two_ne_zero e
  have hnum : num * Nat.pow 2 (-e).toNat = s * (den * Nat.pow 2 e.toNat) := by
    rw [← Nat.cast_inj (R := ℚ)]
    simp only [Nat.pow_eq, Nat.cast_mul, Nat.cast_pow, Nat.cast_ofNat]
    rw [hpow, (div_eq_iff hd').1 h]
    ring
  rw [scaledQuotient, hnum, roundedQuotient_mul hpos]

/-! ## Rounded numbers -/

/-- The significand and the exponent are those of a rounded number. -/
def Canonical : Binary64 → Prop
  | .nan => True
  | .infinite _ => True
  | .finite _ s e =>
    leastExponent ≤ e ∧ e ≤ greatestExponent ∧ s < 2 ^ 53 ∧ (e = leastExponent ∨ 2 ^ 52 ≤ s)

theorem canonical_zero (negative : Bool) : (zero negative).Canonical :=
  ⟨le_rfl, by decide, by decide, .inl rfl⟩

theorem canonical_ofParts (negative : Bool) {s : ℕ} {e : ℤ} (hleast : leastExponent ≤ e)
    (hlt : s < 2 ^ 53) (hle : e = leastExponent ∨ 2 ^ 52 ≤ s) : (ofParts negative s e).Canonical := by
  rw [ofParts]
  by_cases hg : greatestExponent < e
  · rw [if_pos hg]
    trivial
  · rw [if_neg hg]
    by_cases h0 : s = 0
    · rw [if_pos h0]
      exact canonical_zero negative
    · rw [if_neg h0]
      exact ⟨hleast, not_lt.1 hg, hlt, hle⟩

theorem canonical_ofQuotient (negative : Bool) {num den : ℕ} (hn : 0 < num) (hd : 0 < den) :
    (ofQuotient negative num den).Canonical := by
  have hfits := fits_exponentOf hn hd
  have hle := scaledQuotient_le hd hfits
  have hge := le_scaledQuotient hd hfits
  have hleast := hfits.least
  rw [ofQuotient]
  by_cases hs : scaledQuotient num den (exponentOf num den) = Nat.pow 2 53
  · rw [if_pos hs]
    exact canonical_ofParts negative (by omega) (by norm_num) (.inr le_rfl)
  · rw [if_neg hs]
    exact canonical_ofParts negative hleast (lt_of_le_of_ne hle hs) hge

theorem canonical_nearest (negative : Bool) (digits : ℕ) (exponent : ℤ) :
    (nearest negative digits exponent).Canonical := by
  rw [nearest]
  split_ifs with hsmall hlarge
  · exact canonical_zero negative
  · trivial
  · have hdigits : 0 < digits := Nat.pos_of_ne_zero fun h => hsmall (.inl h)
    exact canonical_ofQuotient negative
      (Nat.mul_pos hdigits (Nat.pow_pos (by decide))) (Nat.pow_pos (by decide))

/-- The value of a decimal or binary quotient decides what it is rounded to. -/
theorem ofQuotient_congr (negative : Bool) {num den num' den' : ℕ} (hn : 0 < num) (hd : 0 < den)
    (hn' : 0 < num') (hd' : 0 < den') (h : (num : ℚ) / den = num' / den') :
    ofQuotient negative num den = ofQuotient negative num' den' := by
  have hfits := fits_exponentOf hn hd
  rw [h] at hfits
  have he : exponentOf num den = exponentOf num' den' := hfits.unique (fits_exponentOf hn' hd')
  rw [ofQuotient, ofQuotient, he, scaledQuotient_congr hd hd' h]

theorem fits_of_canonical {negative : Bool} {s : ℕ} {e : ℤ} (h : (finite negative s e).Canonical) :
    Fits (s * 2 ^ e) e := by
  obtain ⟨hleast, -, hlt, hle⟩ := h
  have hpow : (0 : ℚ) < 2 ^ e := by positivity
  refine ⟨hleast, ?_, hle.imp_right fun hle => ?_⟩
  · have : (s : ℚ) < 2 ^ 53 := by exact_mod_cast hlt
    gcongr
  · have : (2 : ℚ) ^ 52 ≤ s := by exact_mod_cast hle
    gcongr

/-- A quotient with the value of a canonical number is rounded to this number. -/
theorem ofQuotient_of_value {negative : Bool} {s : ℕ} {e : ℤ}
    (h : (finite negative s e).Canonical) (hs : 0 < s) {num den : ℕ} (hn : 0 < num) (hd : 0 < den)
    (hv : (num : ℚ) / den = s * 2 ^ e) : ofQuotient negative num den = finite negative s e := by
  have hfits := fits_exponentOf hn hd
  rw [hv] at hfits
  have he : exponentOf num den = e := hfits.unique (fits_of_canonical h)
  obtain ⟨-, hgreatest, hlt, -⟩ := h
  have hne : ¬ s = Nat.pow 2 53 := hlt.ne
  rw [ofQuotient, he, scaledQuotient_of_eq hd hv, if_neg hne, ofParts,
    if_neg (not_lt.2 hgreatest), if_neg hs.ne']

end Binary64

/-! ## Decimals -/

theorem length_natural_le_iff {n k : ℕ} (h : 0 < k) : (natural n).length ≤ k ↔ n < 10 ^ k := by
  rw [natural, List.length_map, Nat.length_toDigits_le_iff (by decide) h]

/-- How many digits a decimal has in front of the point, by its value. -/
theorem places_bounds {digits : ℕ} (hd : 0 < digits) (exponent : ℤ) :
    (10 : ℚ) ^ ((natural digits).length + exponent - 1) ≤ digits * 10 ^ exponent ∧
      (digits : ℚ) * 10 ^ exponent < 10 ^ ((natural digits).length + exponent) := by
  have hpow : (0 : ℚ) < 10 ^ exponent := by positivity
  have hlength : 0 < (natural digits).length := List.length_pos_of_ne_nil (natural_ne_nil digits)
  obtain ⟨k, hk⟩ : ∃ k, (natural digits).length = k + 1 := ⟨_, (Nat.succ_pred hlength.ne').symm⟩
  have hlt : digits < 10 ^ (k + 1) := by
    rw [← length_natural_le_iff k.succ_pos, hk]
  have hle : 10 ^ k ≤ digits := by
    rcases Nat.eq_zero_or_pos k with rfl | hpos
    · exact hd
    · rw [← not_lt, ← length_natural_le_iff hpos, hk]
      omega
  have hlow : ((k + 1 : ℕ) : ℤ) + exponent - 1 = k + exponent := by
    push_cast
    ring
  rw [hk, hlow, zpow_add₀ (by norm_num), zpow_add₀ (by norm_num), zpow_natCast, zpow_natCast]
  constructor
  · have : (10 : ℚ) ^ k ≤ digits := by exact_mod_cast hle
    gcongr
  · have : (digits : ℚ) < 10 ^ (k + 1) := by exact_mod_cast hlt
    gcongr

theorem places_congr {digits digits' : ℕ} (hd : 0 < digits) (hd' : 0 < digits')
    {exponent exponent' : ℤ}
    (h : (digits : ℚ) * 10 ^ exponent = digits' * 10 ^ exponent') :
    ((natural digits).length : ℤ) + exponent = (natural digits').length + exponent' := by
  obtain ⟨hlow, hhigh⟩ := places_bounds hd exponent
  obtain ⟨hlow', hhigh'⟩ := places_bounds hd' exponent'
  rw [h] at hlow hhigh
  have h₁ := (zpow_lt_zpow_iff_right₀ (by norm_num)).1 (hlow.trans_lt hhigh')
  have h₂ := (zpow_lt_zpow_iff_right₀ (by norm_num)).1 (hlow'.trans_lt hhigh)
  omega

theorem digits_pos_of_value {digits : ℕ} {exponent : ℤ} {q : ℚ}
    (h : (digits : ℚ) * 10 ^ exponent = q) (hq : 0 < q) : 0 < digits := by
  rw [← h] at hq
  have := pos_of_mul_pos_left hq (by positivity)
  exact_mod_cast this

/-- The quotient of two natural numbers that a decimal stands for. -/
theorem decimal_quotient (digits : ℕ) (exponent : ℤ) :
    ((digits * Nat.pow 10 exponent.toNat : ℕ) : ℚ) / (Nat.pow 10 (-exponent).toNat : ℕ) =
      digits * 10 ^ exponent := by
  have hpow : (10 : ℚ) ^ exponent.toNat = 10 ^ exponent * 10 ^ (-exponent).toNat :=
    pow_toNat (b := 10) (by decide) exponent
  have hpos : (10 : ℚ) ^ (-exponent).toNat ≠ 0 := by positivity
  simp only [Nat.pow_eq, Nat.cast_mul, Nat.cast_pow, Nat.cast_ofNat]
  rw [hpow, div_eq_iff hpos, mul_assoc]

namespace Binary64

/-- **Decimals of one value** are rounded to one number. -/
theorem nearest_congr (negative : Bool) {digits digits' : ℕ} (hd : 0 < digits)
    {exponent exponent' : ℤ} (h : (digits' : ℚ) * 10 ^ exponent' = digits * 10 ^ exponent) :
    nearest negative digits' exponent' = nearest negative digits exponent := by
  have hd' : 0 < digits' := digits_pos_of_value h (by positivity)
  have hpow : ∀ k, 0 < Nat.pow 10 k := fun k => Nat.pow_pos (by decide)
  have hquotient := ofQuotient_congr negative (Nat.mul_pos hd' (hpow exponent'.toNat))
    (hpow (-exponent').toNat) (Nat.mul_pos hd (hpow exponent.toNat)) (hpow (-exponent).toNat)
    (by rw [decimal_quotient, decimal_quotient, h])
  simp only [nearest, places_congr hd' hd h, hd.ne', hd'.ne', hquotient]

theorem ten_pow_le_least : (10 : ℚ) ^ (-331 : ℤ) ≤ 2 ^ leastExponent := by
  have h : 2 ^ 1074 ≤ 10 ^ 331 := by decide +kernel
  have hcast : (2 : ℚ) ^ 1074 ≤ 10 ^ 331 := by exact_mod_cast h
  have hten : (10 : ℚ) ^ (-331 : ℤ) = (10 ^ 331)⁻¹ := zpow_neg _ _
  have htwo : (2 : ℚ) ^ leastExponent = (2 ^ 1074)⁻¹ := zpow_neg _ _
  rw [hten, htwo]
  exact inv_anti₀ (by positivity) hcast

theorem greatest_le_ten_pow : (2 : ℚ) ^ 53 * 2 ^ greatestExponent ≤ 10 ^ (309 : ℤ) := by
  have h : 2 ^ 53 * 2 ^ 971 ≤ 10 ^ 309 := by decide +kernel
  have hcast : (2 : ℚ) ^ 53 * 2 ^ 971 ≤ 10 ^ 309 := by exact_mod_cast h
  exact hcast

/-- The values of canonical numbers other than zero. -/
theorem value_bounds {negative : Bool} {s : ℕ} {e : ℤ} (h : (finite negative s e).Canonical)
    (hs : 0 < s) :
    (10 : ℚ) ^ (-331 : ℤ) ≤ s * 2 ^ e ∧ (s : ℚ) * 2 ^ e < 10 ^ (309 : ℤ) := by
  obtain ⟨hleast, hgreatest, hlt, -⟩ := h
  have hs' : (1 : ℚ) ≤ s := by exact_mod_cast hs
  have hlt' : (s : ℚ) < 2 ^ 53 := by exact_mod_cast hlt
  constructor
  · calc (10 : ℚ) ^ (-331 : ℤ) ≤ 2 ^ leastExponent := ten_pow_le_least
      _ ≤ 2 ^ e := zpow_le_zpow_right₀ one_le_two hleast
      _ ≤ s * 2 ^ e := le_mul_of_one_le_left (by positivity) hs'
  · have hpow : (2 : ℚ) ^ e ≤ 2 ^ greatestExponent := zpow_le_zpow_right₀ one_le_two hgreatest
    calc (s : ℚ) * 2 ^ e < 2 ^ 53 * 2 ^ e := by gcongr
      _ ≤ 2 ^ 53 * 2 ^ greatestExponent := by gcongr
      _ ≤ 10 ^ (309 : ℤ) := greatest_le_ten_pow

/-- **A decimal with the value of a canonical number** is rounded to this number. -/
theorem nearest_of_value {negative : Bool} {s : ℕ} {e : ℤ} (h : (finite negative s e).Canonical)
    (hs : 0 < s) {digits : ℕ} {exponent : ℤ}
    (hv : (digits : ℚ) * 10 ^ exponent = s * 2 ^ e) :
    nearest negative digits exponent = finite negative s e := by
  have hd : 0 < digits := digits_pos_of_value hv (by positivity)
  obtain ⟨hlow, hhigh⟩ := value_bounds h hs
  obtain ⟨hlow', hhigh'⟩ := places_bounds hd exponent
  rw [hv] at hlow' hhigh'
  -- The value is far from both ends, so neither guard on the exponent applies.
  have hsmall := (zpow_lt_zpow_iff_right₀ (by norm_num)).1 (hlow.trans_lt hhigh')
  have hlarge := (zpow_lt_zpow_iff_right₀ (by norm_num)).1 (hlow'.trans_lt hhigh)
  have hpow : ∀ k, 0 < Nat.pow 10 k := fun k => Nat.pow_pos (by decide)
  rw [nearest, if_neg (by omega), if_neg (by omega)]
  refine ofQuotient_of_value h hs (Nat.mul_pos hd (hpow _)) (hpow _) ?_
  rw [decimal_quotient, hv]

theorem nearest_of_unsigned {s digits : ℕ} {e exponent : ℤ}
    (h : nearest false digits exponent = finite false s e) (negative : Bool) :
    nearest negative digits exponent = finite negative s e := by
  have hzero : zero false = finite false s e → zero negative = finite negative s e := by
    intro hz
    cases hz
    rfl
  have hparts : ∀ s' e', ofParts false s' e' = finite false s e →
      ofParts negative s' e' = finite negative s e := by
    intro s' e' hp
    rw [ofParts] at hp ⊢
    split_ifs at hp ⊢
    · exact hzero hp
    · cases hp
      rfl
  rw [nearest] at h ⊢
  split_ifs at h ⊢
  · exact hzero h
  · rw [ofQuotient] at h ⊢
    split_ifs at h ⊢
    · exact hparts _ _ h
    · exact hparts _ _ h

end Binary64

end SearchQuery
