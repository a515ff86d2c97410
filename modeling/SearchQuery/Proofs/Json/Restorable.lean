import SearchQuery.Proofs.Json.Bytes
import SearchQuery.Proofs.Json.Floats

/-!
# What is read can be written back

**Theorem (`restorable_of_read`).** Every value that is read from a text reads back when it is
written.

The reader makes nothing that the writer could not give back: it joins every pair of halves, it
refuses whole numbers with too many digits, it rounds the others to canonical ones, a later member
takes the place of an earlier one of the same key, and it counts how deep arrays and objects stand
inside each other.

The proof is an induction on the fuel of the reader, for values, elements and members at once
(`ReadsRestorable`).
-/

namespace SearchQuery

namespace Json

/-! ## Strings -/

/-- A half in front of a text is not joined with what the text starts with. -/
def Apart (n : Fin 0x800) (t : Text) : Prop :=
  ∀ m, t.head? = some (.half m) → ¬ (n.val < 0x400 ∧ 0x400 ≤ m.val)

theorem joinHalves_half {n : Fin 0x800} {t : Text} (h : Apart n t) :
    joinHalves (.half n :: t) = .half n :: joinHalves t := by
  cases t with
  | nil => rfl
  | cons c t =>
    cases c with
    | char c => rw [joinHalves]; simp
    | half m => rw [joinHalves, if_neg (h m rfl)]

/-- Joining keeps the first code point or puts a character in its place. -/
theorem head?_joinHalves (t : Text) :
    (joinHalves t).head? = t.head? ∨ ∃ c, (joinHalves t).head? = some (.char c) := by
  fun_cases joinHalves t with
  | case1 => exact .inr ⟨_, rfl⟩
  | case2 => exact .inl rfl
  | case3 => exact .inl rfl
  | case4 => exact .inl rfl

theorem Apart.joinHalves {n : Fin 0x800} {t : Text} (h : Apart n t) :
    Apart n (joinHalves t) := by
  intro m hm
  rcases head?_joinHalves t with hs | ⟨c, hc⟩
  · exact h m (hs ▸ hm)
  · rw [hc] at hm
    cases hm

theorem joined_cons_half {n : Fin 0x800} {t : Text} (h : Apart n t) (ht : Joined t) :
    Joined (.half n :: t) := by
  rw [Joined, joinHalves_half h, ht]

/-- Joining twice is joining once: no new pair comes up. -/
theorem joined_joinHalves (t : Text) : Joined (joinHalves t) := by
  fun_induction Json.joinHalves t with
  | case1 n m rest hpair ih => rw [Joined, joinHalves_char, ih]
  | case2 n m rest hpair ih =>
    have hapart : Apart n (.half m :: rest) := by
      intro m' hm
      obtain rfl := CodePoint.half.inj (Option.some.inj hm)
      exact hpair
    exact joined_cons_half hapart.joinHalves ih
  | case3 c rest hnext ih =>
    cases c with
    | char c => rw [Joined, joinHalves_char, ih]
    | half n =>
      -- Two halves in a row are left to the cases above.
      have hapart : Apart n rest := by
        intro m hm
        obtain ⟨rest', rfl⟩ := List.head?_eq_some_iff.1 hm
        exact (hnext n m rest' rfl rfl).elim
      exact joined_cons_half hapart.joinHalves ih
  | case4 => rfl

theorem joined_of_readString {t s rest : Text} (h : readString t = some (s, rest)) : Joined s := by
  obtain ⟨p, -, hp⟩ := Option.map_eq_some_iff.1 h
  obtain ⟨rfl, -⟩ := Prod.mk.inj hp
  exact joined_joinHalves p.1

/-! ## Numbers -/

theorem ofDigits_lt {t : Text} (h : ∀ c ∈ t, c.isDigit = true) : ofDigits t < 10 ^ t.length := by
  -- The last digit adds one place, so the induction is on the digits from their end.
  induction t using List.reverseRecOn with
  | nil => decide
  | append_singleton t c ih =>
    obtain ⟨ht, hc⟩ := List.forall_mem_append.1 h
    have hlast := toNat_of_isDigit (hc c List.mem_cons_self)
    have hvalue : digitValue c < 10 := by
      rw [digitValue]
      have hzero : '0'.toNat = 48 := rfl
      omega
    have hfold : ofDigits (t ++ [c]) = ofDigits t * 10 + digitValue c := List.foldl_append
    have hfront := ih ht
    rw [hfold, List.length_append, List.length_singleton, pow_succ]
    omega

/-- The digits of a whole number are at least one. -/
theorem digits_of_readWhole {t whole rest : Text} (h : readWhole t = some (whole, rest)) :
    whole ≠ [] ∧ ∀ c ∈ whole, c.isDigit = true := by
  unfold readWhole at h
  split at h
  · cases h
    exact ⟨List.cons_ne_nil _ _, List.forall_mem_singleton.2 rfl⟩
  · split at h
    next hc =>
      cases h
      refine ⟨List.cons_ne_nil _ _, List.forall_mem_cons.2 ⟨hc, ?_⟩⟩
      intro d hd
      exact List.mem_takeWhile_imp hd
    next => cases h
  · cases h

/-- The numeral of a whole number is not longer than what was read. -/
theorem length_natural_of_readWhole {t whole rest : Text} (h : readWhole t = some (whole, rest)) :
    (natural (ofDigits whole)).length ≤ whole.length := by
  obtain ⟨hne, hd⟩ := digits_of_readWhole h
  exact (length_natural_le_iff (List.length_pos_of_ne_nil hne)).2 (ofDigits_lt hd)

theorem restorable_of_readUnsigned {negative : Bool} {t rest : Text} {v : Json}
    (h : readUnsigned negative t = .ok (v, rest)) (d : Nat) : Restorable d v := by
  unfold readUnsigned at h
  cases hw : readWhole t with
  | none => simp [hw] at h
  | some p =>
    obtain ⟨whole, left⟩ := p
    simp only [hw] at h
    split at h
    · split at h
      next => cases h
      next hlong =>
        cases h
        have hlength := length_natural_of_readWhole hw
        refine .int ?_
        have habs : (if negative = true then -(ofDigits whole : Int) else ofDigits whole).natAbs =
            ofDigits whole := by
          split <;> simp
        rw [habs]
        omega
    · cases h
      exact .float (Binary64.canonical_nearest _ _ _).readsBack

theorem restorable_of_readScalar {t rest : Text} {v : Json} (h : readScalar t = .ok (v, rest))
    (d : Nat) : Restorable d v := by
  have hwords : ∀ w ∈ words, Restorable d w.2 := by
    have hnan : Restorable d (.float .nan) := .float (Binary64.Canonical.readsBack trivial)
    have hinfinite : ∀ negative, Restorable d (.float (.infinite negative)) := fun negative =>
      .float (Binary64.Canonical.readsBack trivial)
    simp [words, Restorable.null, Restorable.bool, hnan, hinfinite]
  unfold readScalar at h
  split at h
  next p hp =>
    obtain ⟨w, hw, hword⟩ := List.exists_of_findSome?_eq_some hp
    obtain ⟨left, -, rfl⟩ := Option.map_eq_some_iff.1 hword
    cases h
    exact hwords w hw
  next =>
    split at h
    · exact restorable_of_readUnsigned h d
    · exact restorable_of_readUnsigned h d

/-! ## Objects -/

theorem restorable_object_iff {d : Nat} {ms : Entries Text Json} :
    Restorable (d + 1) (.object ms) ↔
      ms.keys.Nodup ∧ (∀ k ∈ ms.keys, Joined k) ∧ ∀ m ∈ ms, Restorable d m.2 := by
  constructor
  · intro h
    cases h with
    | object hk hj h => exact ⟨hk, hj, h⟩
  · rintro ⟨hk, hj, h⟩
    exact .object hk hj h

theorem restorable_empty_object {d : Nat} : Restorable (d + 1) (.object []) :=
  .object List.nodup_nil (fun _ hk => absurd hk List.not_mem_nil)
    fun _ hm => absurd hm List.not_mem_nil

theorem Restorable.merge {d : Nat} {ms later : Entries Text Json}
    (h : Restorable (d + 1) (.object ms)) (hl : ∀ e ∈ later, Joined e.1 ∧ Restorable d e.2) :
    Restorable (d + 1) (.object (ms.merge later)) := by
  obtain ⟨hk, hj, hv⟩ := restorable_object_iff.1 h
  have hall : ∀ e ∈ ms.merge later, Joined e.1 ∧ Restorable d e.2 :=
    Entries.forall_mem_merge (fun e he => ⟨hj e.1 (List.mem_map.2 ⟨e, he, rfl⟩), hv e he⟩) hl
  refine .object (Entries.nodup_merge hk later) ?_ fun e he => (hall e he).2
  intro k hkm
  obtain ⟨e, he, rfl⟩ := List.mem_map.1 hkm
  exact (hall e he).1

theorem Restorable.put {d : Nat} {ms : Entries Text Json} (h : Restorable (d + 1) (.object ms))
    {key : Text} (hk : Joined key) {value : Json} (hv : Restorable d value) :
    Restorable (d + 1) (.object (ms.put key value)) := by
  -- One write is the merge of one entry.
  have hone : ∀ e ∈ [(key, value)], Joined e.1 ∧ Restorable d e.2 :=
    List.forall_mem_singleton.2 ⟨hk, hv⟩
  exact h.merge hone

theorem Restorable.erase {d : Nat} {ms : Entries Text Json}
    (h : Restorable (d + 1) (.object ms)) (key : Text) :
    Restorable (d + 1) (.object (ms.erase key)) := by
  obtain ⟨hk, hj, hv⟩ := restorable_object_iff.1 h
  have hsub : (ms.erase key).Sublist ms := List.filter_sublist
  exact .object (hk.sublist (hsub.map _)) (fun k hkm => hj k ((hsub.map _).subset hkm))
    fun e he => hv e (hsub.subset he)

/-! ## Values -/

/-- Whatever is read with some fuel reads back when it is written. -/
structure ReadsRestorable (fuel : Nat) : Prop where
  value : ∀ {d t v rest}, readValue d fuel t = .ok (v, rest) → Restorable d v
  elements : ∀ {d t xs rest}, readElements d fuel t = .ok (xs, rest) → ∀ x ∈ xs, Restorable d x
  members : ∀ {d t ms rest}, readMembers d fuel t = .ok (ms, rest) →
    ∀ m ∈ ms, Joined m.1 ∧ Restorable d m.2

theorem ReadsRestorable.value_succ {fuel : Nat} (ih : ReadsRestorable fuel) {d : Nat}
    {t rest : Text} {v : Json} (h : readValue d (fuel + 1) t = .ok (v, rest)) : Restorable d v := by
  unfold readValue at h
  split at h
  · split at h
    next hs =>
      cases h
      exact .string (joined_of_readString hs)
    next => cases h
  · split at h
    · cases h
    · split at h
      · cases h
        exact .array fun _ hx => absurd hx List.not_mem_nil
      · split at h
        next hxs =>
          cases h
          exact .array (ih.elements hxs)
        next => cases h
  · split at h
    · cases h
    · split at h
      · cases h
        exact restorable_empty_object
      · split at h
        next hms =>
          cases h
          exact restorable_empty_object.merge (ih.members hms)
        next => cases h
  · exact restorable_of_readScalar h d

theorem ReadsRestorable.elements_succ {fuel : Nat} (ih : ReadsRestorable fuel) {d : Nat}
    {t rest : Text} {xs : List Json} (h : readElements d (fuel + 1) t = .ok (xs, rest)) :
    ∀ x ∈ xs, Restorable d x := by
  unfold readElements at h
  split at h
  · cases h
  · next hx =>
    split at h
    · cases h
      exact List.forall_mem_singleton.2 (ih.value hx)
    · split at h
      next hxs =>
        cases h
        exact List.forall_mem_cons.2 ⟨ih.value hx, ih.elements hxs⟩
      next => cases h
    · cases h

theorem ReadsRestorable.members_succ {fuel : Nat} (ih : ReadsRestorable fuel) {d : Nat}
    {t rest : Text} {ms : List (Text × Json)}
    (h : readMembers d (fuel + 1) t = .ok (ms, rest)) :
    ∀ m ∈ ms, Joined m.1 ∧ Restorable d m.2 := by
  unfold readMembers at h
  split at h
  · split at h
    · cases h
    · next hk =>
      split at h
      · split at h
        · cases h
        · next hx =>
          have hfirst := And.intro (joined_of_readString hk) (ih.value hx)
          split at h
          · cases h
            exact List.forall_mem_singleton.2 hfirst
          · split at h
            next hms =>
              cases h
              exact List.forall_mem_cons.2 ⟨hfirst, ih.members hms⟩
            next => cases h
          · cases h
      · cases h
  · cases h

theorem readsRestorable (fuel : Nat) : ReadsRestorable fuel := by
  induction fuel with
  | zero =>
    -- Without fuel nothing is read.
    refine ⟨?_, ?_, ?_⟩ <;>
      · intro _ _ _ _ h
        cases h
  | succ fuel ih => exact ⟨ih.value_succ, ih.elements_succ, ih.members_succ⟩

/-- **What is read reads back** when it is written. -/
theorem restorable_of_read {t : Text} {v : Json} (h : read t = .ok v) : Restorable depthLimit v := by
  unfold read at h
  split at h
  · cases h
  · next hv =>
    split at h
    · cases h
      exact (readsRestorable _).value hv
    · cases h

end Json

end SearchQuery
