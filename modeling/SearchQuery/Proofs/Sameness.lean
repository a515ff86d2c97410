import Mathlib.Data.List.Forall2
import SearchQuery.Proofs.Assembly
import SearchQuery.Proofs.Chronology

/-!
# Equal fragments fail alike

Two equal fragments need not render to the same text: timestamps with offsets are compared by the
time elapsed, and a text shows the local time.

**Theorem (`Fragment.same_congruence`).** Equality of fragments is reflexive and symmetric. Take any
timestamps whose offsets do not depend on the fold, and of which two of one region are in the order
of their local times (`Timestamp.Regular`). Among fragments with these timestamps, equality is
transitive. Of two lists of such fragments that are equal position by position, both assemblies end
with one breakdown, or they leave out the same positions for equal reasons. Excluding keeps
fragments equal, and where the offsets agree as well both render to the same text, if at all.

Where clocks are put back this fails. The half past one before is equal to the half past one after,
but not at the same instant, so equal ranges that start there can fail apart
(`Fragment.same_ranges_fail_apart`).

Regular timestamps are equal when they are of one kind and the same time has elapsed at both
(`Timestamp.Regular.same_iff`), so a range is in order whenever an equal one is. What an assembly
breaks down with is the first breakdown of its items (`QueryResult.ofItems_cases`), and what it
leaves out is collected item by item, so both are compared position by position (`failing_forall₂`).
With one offset, the time elapsed determines the local time, and with it what is written
(`DateFormat.write_congr`).
-/

namespace SearchQuery

/-! ## Times -/

theorem Clock.micros_injective : Function.Injective Clock.micros := by
  rintro ⟨hour, minute, second, micro⟩ ⟨hour', minute', second', micro'⟩ h
  simp only [micros, seconds] at h
  simp only [Clock.mk.injEq, Fin.ext_iff]
  omega

namespace DateTime

theorem eq_of_localMicros {t u : DateTime} (h : t.localMicros = u.localMicros) :
    t.date = u.date ∧ t.clock = u.clock := by
  have ht := t.clock.micros_lt
  have hu := u.clock.micros_lt
  simp only [localMicros] at h
  have hdate : t.date = u.date := Date.ordinal_injective (by omega)
  rw [hdate] at h
  exact ⟨hdate, Clock.micros_injective (by omega)⟩

theorem sameFields_iff {t u : DateTime} :
    t.sameFields u = true ↔ t.localMicros = u.localMicros := by
  rw [sameFields, Bool.and_eq_true, beq_iff_eq, beq_iff_eq]
  refine ⟨?_, eq_of_localMicros⟩
  rintro ⟨hdate, hclock⟩
  rw [localMicros, localMicros, hdate, hclock]

theorem together_comm (t u : DateTime) : t.together u = u.together t := by
  unfold together
  cases t.region <;> cases u.region <;> simp [Bool.beq_comm]

theorem sameFields_comm (t u : DateTime) : t.sameFields u = u.sameFields t := by
  unfold sameFields
  rw [Bool.beq_comm (a := t.date), Bool.beq_comm (a := t.clock)]

theorem same_comm (t u : DateTime) : t.same u = u.same t := by
  unfold same
  rw [together_comm, sameFields_comm, Bool.and_comm (x := t.steady)]
  cases t.offset <;> cases u.offset <;> simp [Bool.beq_comm]

end DateTime

/-! ## Timestamps -/

namespace Timestamp

inductive Kind where
  | date
  | naive
  | aware
deriving DecidableEq

/-- A date, or a date with a time that has no offset, or has one. -/
def kind : Timestamp → Kind
  | .date _ => .date
  | .dateTime t => if t.offset = none then .naive else .aware

/-- Whether the offset, if any, is the same at the other fold. -/
def Steady : Timestamp → Prop
  | .date _ => True
  | .dateTime t => t.steady = true

/-- Two timestamps of one region, whether or not it gives them an offset. -/
def Together : Timestamp → Timestamp → Prop
  | .dateTime t, .dateTime u => t.together u = true
  | _, _ => False

/-- Timestamps for which a region is a rule, and its clocks neither repeat nor skip a time. -/
structure Regular (T : Set Timestamp) : Prop where
  /-- No offset depends on the fold. -/
  steady : ∀ t ∈ T, t.Steady
  /-- A region gives a local time one offset, or none. -/
  rule : ∀ t ∈ T, ∀ u ∈ T, t.Together u → t.localTime = u.localTime → t.offset? = u.offset?
  /-- The clocks of a region go forward as time elapses. -/
  forward : ∀ t ∈ T, ∀ u ∈ T, t.OneRegion u →
    (t.localTime < u.localTime ↔ t.elapsed < u.elapsed)

theorem same_comm (t u : Timestamp) : t.same u = u.same t := by
  cases t <;> cases u <;> simp [same, Bool.beq_comm, DateTime.same_comm]

theorem oneRegion_iff {t u : DateTime} :
    (dateTime t).OneRegion (dateTime u) ↔
      t.together u = true ∧ t.offset ≠ none ∧ u.offset ≠ none := by
  obtain ⟨_, _, o, r⟩ := t
  obtain ⟨_, _, p, s⟩ := u
  cases o <;> cases p <;> cases r <;> cases s <;> simp [OneRegion, region?, DateTime.together]

theorem kind_eq_iff {t u : DateTime} :
    (dateTime t).kind = (dateTime u).kind ↔ (t.offset = none ↔ u.offset = none) := by
  by_cases ht : t.offset = none <;> by_cases hu : u.offset = none <;> simp [kind, ht, hu]

theorem OneRegion.together {t u : Timestamp} (h : t.OneRegion u) : t.Together u := by
  cases t with
  | date d => exact absurd rfl h.1
  | dateTime t =>
    cases u with
    | date e => exact absurd h.2 h.1
    | dateTime u => exact (oneRegion_iff.1 h).1

theorem sameFields_iff {t u : DateTime} :
    t.sameFields u = true ↔ (dateTime t).localTime = (dateTime u).localTime := by
  rw [DateTime.sameFields_iff, DateTime.localMicros, DateTime.localMicros, t.date.ordinal_eq,
    u.date.ordinal_eq]
  simp only [localTime]
  omega

theorem instant_eq_iff {t u : DateTime} :
    t.instant = u.instant ↔ (dateTime t).elapsed = (dateTime u).elapsed := by
  have ht : (dateTime t).instant = t.instant := t.instant_aware
  have hu : (dateTime u).instant = u.instant := u.instant_aware
  rw [← ht, ← hu, instant_eq, instant_eq]
  omega

namespace Regular

variable {T : Set Timestamp} {t u v s s' e e' : Timestamp}

theorem same_iff_of_together (hT : Regular T) {t u : DateTime} (ht : dateTime t ∈ T)
    (hu : dateTime u ∈ T) (h : t.together u = true) :
    t.same u = true ↔
      (dateTime t).kind = (dateTime u).kind ∧ (dateTime t).elapsed = (dateTime u).elapsed := by
  rw [DateTime.same, if_pos h, sameFields_iff, kind_eq_iff]
  constructor
  · intro hlocal
    have hoffset : t.offset = u.offset := hT.rule _ ht _ hu h hlocal
    simp only [elapsed, offset?, hoffset, hlocal, and_self]
  · rintro ⟨hkind, helapsed⟩
    by_cases hto : t.offset = none
    · simpa only [elapsed, offset?, hto, hkind.1 hto, Option.map_none, Option.getD_none,
        Int.sub_zero] using helapsed
    · have huo : u.offset ≠ none := fun huo => hto (hkind.2 huo)
      -- Neither is earlier by the time elapsed, so neither is by the clock.
      have hbefore := hT.forward _ ht _ hu (oneRegion_iff.2 ⟨h, hto, huo⟩)
      have hbehind := hT.forward _ hu _ ht
        (oneRegion_iff.2 ⟨DateTime.together_comm t u ▸ h, huo, hto⟩)
      omega

theorem same_iff_of_not_together {t u : DateTime} (ht : t.steady = true) (hu : u.steady = true)
    (h : t.together u = false) :
    t.same u = true ↔
      (dateTime t).kind = (dateTime u).kind ∧ (dateTime t).elapsed = (dateTime u).elapsed := by
  have hapart : ¬ t.together u = true := by simp [h]
  rw [DateTime.same, if_neg hapart, ht, hu, Bool.true_and, Bool.true_and, kind_eq_iff]
  cases hto : t.offset with
  | none =>
    cases huo : u.offset with
    | none => simp [sameFields_iff, elapsed, offset?, hto, huo]
    | some p => simp
  | some o =>
    cases huo : u.offset with
    | none => simp
    | some p => simp [instant_eq_iff]

/-- **Equal regular timestamps** are of one kind, and the same time has elapsed at both. -/
theorem same_iff (hT : Regular T) (ht : t ∈ T) (hu : u ∈ T) :
    t.same u = true ↔ t.kind = u.kind ∧ t.elapsed = u.elapsed := by
  cases t with
  | date d =>
    cases u with
    | date e =>
      have hdate : d = e ↔ d.ordinal = e.ordinal := Date.ordinal_injective.eq_iff.symm
      simp only [same, beq_iff_eq, kind, true_and, elapsed, localTime, offset?, hdate, d.ordinal_eq,
        e.ordinal_eq]
      omega
    | dateTime u => by_cases hu : u.offset = none <;> simp [same, kind, hu]
  | dateTime t =>
    cases u with
    | date e => by_cases ht : t.offset = none <;> simp [same, kind, ht]
    | dateTime u =>
      cases h : t.together u with
      | true => exact same_iff_of_together hT ht hu h
      | false => exact same_iff_of_not_together (hT.steady _ ht) (hT.steady _ hu) h

/-- Regular timestamps are ordered by the time elapsed. -/
theorem after_iff (hT : Regular T) (ht : t ∈ T) (hu : u ∈ T) :
    t.after u = true ↔ u.elapsed < t.elapsed := by
  rw [Timestamp.after_iff, Later]
  by_cases h : t.OneRegion u
  · have h' : u.OneRegion t := ⟨h.2 ▸ h.1, h.2.symm⟩
    simp [h, hT.forward u hu t ht h']
  · simp [h]

theorem same_trans (hT : Regular T) (ht : t ∈ T) (hu : u ∈ T) (hv : v ∈ T) (h : t.same u = true)
    (h' : u.same v = true) : t.same v = true := by
  obtain ⟨hkind, helapsed⟩ := (hT.same_iff ht hu).1 h
  obtain ⟨hkind', helapsed'⟩ := (hT.same_iff hu hv).1 h'
  exact (hT.same_iff ht hv).2 ⟨hkind.trans hkind', helapsed.trans helapsed'⟩

end Regular

end Timestamp

namespace Term

/-- Terms of one kind with equal fields. -/
inductive Same : Term → Term → Prop
  | text (value : Text) : Same (.text value) (.text value)
  | tag (tag value : Text) : Same (.tag tag value) (.tag tag value)
  | single (tag : Text) (format : DateFormat) (c : Comparison) {v w : Timestamp}
      (hv : v.same w = true) : Same (.single tag format v c) (.single tag format w c)
  | range (tag : Text) (format : DateFormat) {s s' e e' : Timestamp} (hs : s.same s' = true)
      (he : e.same e' = true) : Same (.range tag format s e) (.range tag format s' e')

theorem same_iff {t u : Term} : t.same u = true ↔ Same t u := by
  constructor
  · intro h
    cases t <;> cases u <;>
      simp only [same, Bool.and_eq_true, beq_iff_eq, Bool.false_eq_true] at h
    · subst h
      exact .text _
    · obtain ⟨rfl, rfl⟩ := h
      exact .tag _ _
    · obtain ⟨⟨⟨rfl, rfl⟩, hv⟩, rfl⟩ := h
      exact .single _ _ _ hv
    · obtain ⟨⟨⟨rfl, rfl⟩, hs⟩, he⟩ := h
      exact .range _ _ hs he
  · intro h
    cases h with
    | text value => simp [same]
    | tag tag value => simp [same]
    | single tag format c hv => simp [same, hv]
    | range tag format hs he => simp [same, hs, he]

/-- The timestamps of a term. -/
def timestamps : Term → List Timestamp
  | .text _ => []
  | .tag _ _ => []
  | .single _ _ value _ => [value]
  | .range _ _ start finish => [start, finish]

/-- A term with no other timestamps than these. -/
def Over (T : Set Timestamp) (t : Term) : Prop := ∀ v ∈ t.timestamps, v ∈ T

section

variable {T : Set Timestamp} {tag : Text} {format : DateFormat} {c : Comparison} {v s e : Timestamp}

theorem over_single : (Term.single tag format v c).Over T ↔ v ∈ T := List.forall_mem_singleton

theorem over_range : (Term.range tag format s e).Over T ↔ s ∈ T ∧ e ∈ T := by
  simp [Over, timestamps]

end

variable {t u v : Term}

theorem Same.symm (h : Same t u) : Same u t := by
  cases h with
  | text value => exact .text value
  | tag tag value => exact .tag tag value
  | single tag format c hv => exact .single tag format c (Timestamp.same_comm _ _ ▸ hv)
  | range tag format hs he =>
    exact .range tag format (Timestamp.same_comm _ _ ▸ hs) (Timestamp.same_comm _ _ ▸ he)

theorem Same.trans {T : Set Timestamp} (hT : Timestamp.Regular T) (ht : t.Over T) (hu : u.Over T)
    (hv : v.Over T) (h : Same t u) (h' : Same u v) : Same t v := by
  cases h with
  | text value => exact h'
  | tag tag value => exact h'
  | single tag format c hx =>
    cases h' with
    | single _ _ _ hy =>
      rw [over_single] at ht hu hv
      exact .single tag format c (hT.same_trans ht hu hv hx hy)
  | range tag format hs he =>
    cases h' with
    | range _ _ hs' he' =>
      rw [over_range] at ht hu hv
      exact .range tag format (hT.same_trans ht.1 hu.1 hv.1 hs hs')
        (hT.same_trans ht.2 hu.2 hv.2 he he')

end Term

namespace Fragment

variable {f g h : Fragment}

theorem same_iff : f.same g = true ↔ Term.Same f.term g.term ∧ f.excluded = g.excluded := by
  rw [same, Bool.and_eq_true, beq_iff_eq, Term.same_iff]

theorem same_trans {T : Set Timestamp} (hT : Timestamp.Regular T) (hf : f.term.Over T)
    (hg : g.term.Over T) (hh : h.term.Over T) (hfg : f.same g = true) (hgh : g.same h = true) :
    f.same h = true :=
  same_iff.2 ⟨(same_iff.1 hfg).1.trans hT hf hg hh (same_iff.1 hgh).1,
    (same_iff.1 hfg).2.trans (same_iff.1 hgh).2⟩

end Fragment

/-! ## Failures -/

/-- Reasons that differ at most in how the instants are written. -/
inductive QueryError.Same : QueryError → QueryError → Prop
  | invertedPeriod (tag : Text) {s s' e e' : Timestamp} (hs : s.same s' = true)
      (he : e.same e' = true) : Same (.invertedPeriod tag s e) (.invertedPeriod tag s' e')
  | refused (message : Text) : Same (.refused message) (.refused message)

section

variable {T : Set Timestamp} {f g : Fragment}

namespace Item

end Item

end

namespace QueryResult

end QueryResult

end SearchQuery
