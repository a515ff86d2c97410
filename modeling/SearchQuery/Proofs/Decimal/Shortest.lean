import SearchQuery.Proofs.Decimal.Rounding

/-!
# Shortest decimals read back

**Theorem (`nearest_shortest`).** The shortest decimal of a canonical number other than zero is
rounded to that number.

Every decimal that the search gives has been read back, the whole expansion apart; and this one has
the value of the number itself (`reads_expansion`).
-/

namespace SearchQuery

namespace Decimal

theorem reads_iff {d : Decimal} {s : ℕ} {e : ℤ} :
    d.reads s e = true ↔ Binary64.nearest false d.digits d.exponent = .finite false s e :=
  beq_iff_eq

/-- The expansion is exact. -/
theorem value_expansion (s : ℕ) (e : ℤ) :
    ((expansion s e).digits : ℚ) * 10 ^ (expansion s e).exponent = s * 2 ^ e := by
  rw [expansion]
  by_cases h : 0 ≤ e
  · obtain ⟨n, rfl⟩ := Int.eq_ofNat_of_zero_le h
    rw [if_pos h]
    simp
  · obtain ⟨n, hn⟩ := Int.eq_ofNat_of_zero_le (show 0 ≤ -e by omega)
    obtain rfl : e = -(n : ℤ) := by omega
    -- A negative power of two is made a decimal by as many factors of five.
    have hten : (10 : ℚ) ^ n = 5 ^ n * 2 ^ n := by rw [← mul_pow]; norm_num
    have hfive : (5 : ℚ) ^ n ≠ 0 := by positivity
    rw [if_neg h]
    simp only [neg_neg, Int.toNat_natCast, Nat.pow_eq, Nat.cast_mul, Nat.cast_pow, Nat.cast_ofNat,
      zpow_neg, zpow_natCast]
    rw [hten, mul_inv, mul_assoc, mul_inv_cancel_left₀ hfive]

theorem reads_expansion {s : ℕ} {e : ℤ} (h : (Binary64.finite false s e).Canonical) (hs : 0 < s) :
    (expansion s e).reads s e = true :=
  reads_iff.2 (Binary64.nearest_of_value h hs (value_expansion s e))

/-- A candidate has been read back. -/
theorem reads_candidate? {exact d : Decimal} {s : ℕ} {e : ℤ} {dropped : ℕ}
    (h : exact.candidate? s e dropped = some d) : d.reads s e = true := by
  simp only [candidate?] at h
  split at h
  · rename_i hlower hupper
    obtain rfl := Option.some.inj h
    split
    · exact hlower
    · exact hupper
  · rename_i hlower _
    obtain rfl := Option.some.inj h
    exact hlower
  · rename_i _ hupper
    obtain rfl := Option.some.inj h
    exact hupper
  · cases h

theorem reads_search {exact : Decimal} {s : ℕ} {e : ℤ} (h : exact.reads s e = true)
    (dropped : ℕ) : (exact.search s e dropped).reads s e = true := by
  induction dropped with
  | zero => exact h
  | succ dropped ih =>
    rw [search]
    cases hc : exact.candidate? s e dropped with
    | some d => exact reads_candidate? hc
    | none => exact ih

/-- **The shortest decimal** of a canonical number is rounded to this number. -/
theorem nearest_shortest {negative : Bool} {s : ℕ} {e : ℤ}
    (h : (Binary64.finite negative s e).Canonical) (hs : 0 < s) :
    Binary64.nearest negative (shortest s e).digits (shortest s e).exponent =
      .finite negative s e := by
  have hcanonical : (Binary64.finite false s e).Canonical := h
  have hreads := reads_search (reads_expansion hcanonical hs)
    (natural (expansion s e).digits).length
  exact Binary64.nearest_of_unsigned (reads_iff.1 hreads) negative

theorem digits_shortest_pos {negative : Bool} {s : ℕ} {e : ℤ}
    (h : (Binary64.finite negative s e).Canonical) (hs : 0 < s) : 0 < (shortest s e).digits := by
  rcases Nat.eq_zero_or_pos (shortest s e).digits with h0 | hpos
  · have hn := nearest_shortest h hs
    rw [h0, Binary64.nearest, if_pos (.inl rfl)] at hn
    cases hn
    exact absurd hs (Nat.lt_irrefl 0)
  · exact hpos

end Decimal

end SearchQuery
