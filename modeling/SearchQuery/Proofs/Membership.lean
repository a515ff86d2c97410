import Mathlib.Data.List.Nodup
import SearchQuery.Proofs.Assembly
import SearchQuery.Workbench

/-!
# Membership in groups of errors

**Theorem (`ErrorGroup.contains_membership`).** A group contains the error objects that were
collected and no others, neither an equal one nor itself. It contains some classes exactly when one
of them has the group or a collected error as an instance, wherever the error stands; so an answer
about classes is the disjunction of those about each, and more failures never take it back.

**Objects.** Among objects that are told apart by their serial numbers, those with the number of a
collected error are collected (`contains_object_iff_mem`). `Workbench.run_contains` says that the
objects of a session are told apart: an assembly numbers its errors one behind the other
(`serials_of?`), every other step leaves the last group alone (`sameLast_step`), and so the number
of a copy is never one of the group's (`Numbered.run`).
-/

namespace SearchQuery

namespace ErrorGroup

variable {g : ErrorGroup}

/-! ## Objects -/

theorem contains_object_iff {n : Nat} :
    g.contains (.object n) = true ↔ ∃ r ∈ g.errors, r.serial = n := by
  simp [contains]

/-- Of objects that are told apart by their numbers, a group contains its own. -/
theorem contains_object_iff_mem {objects : List Raised} (hnodup : (objects.map (·.serial)).Nodup)
    (hsubset : g.errors ⊆ objects) {r : Raised} (hr : r ∈ objects) :
    g.contains (.object r.serial) = true ↔ r ∈ g.errors := by
  rw [contains_object_iff]
  constructor
  · rintro ⟨s, hs, heq⟩
    -- Two of the objects with one number are one object.
    rwa [← List.inj_on_of_nodup_map hnodup (hsubset hs) hr heq]
  · exact fun h => ⟨r, h, rfl⟩

theorem serial_lt {r : Raised} (h : r ∈ g.errors) : r.serial < g.serial := by
  obtain ⟨f, hf, rfl⟩ := List.mem_map.1 h
  exact g.fresh f hf

theorem not_contains_of_le {n : Nat} (h : g.serial ≤ n) : g.contains (.object n) = false := by
  rw [Bool.eq_false_iff, Ne, contains_object_iff]
  rintro ⟨r, hr, rfl⟩
  exact Nat.not_lt.2 h (serial_lt hr)

/-! ## Classes -/

/-- Whether a class has the group or one of its errors as an instance. -/
def HasInstance (g : ErrorGroup) (c : ErrorClass) : Prop :=
  c.hasGroup = true ∨ ∃ r ∈ g.errors, c.hasError r = true

theorem subgroup_eq_none_iff {cs : List ErrorClass} :
    g.subgroup cs = none ↔ ∀ c ∈ cs, ¬ g.HasInstance c := by
  have hfilter : (g.errors.filter fun r => cs.any fun c => c.hasError r) = [] ↔
      ∀ c ∈ cs, ∀ r ∈ g.errors, ¬ c.hasError r = true := by
    simp only [List.filter_eq_nil_iff, List.any_eq_true, not_exists, not_and]
    exact ⟨fun h c hc r hr => h r hr c hc, fun h r hr c hc => h c hc r hr⟩
  unfold subgroup
  split
  · rename_i hgroup
    obtain ⟨c, hc, hinstance⟩ := List.any_eq_true.1 hgroup
    exact iff_of_false (Option.some_ne_none _) fun h => h c hc (.inl hinstance)
  · rename_i hgroup
    -- The group itself is no instance, so what counts is its errors.
    have hno : ∀ c ∈ cs, ¬ c.hasGroup = true := fun c hc h =>
      hgroup (List.any_eq_true.2 ⟨c, hc, h⟩)
    have hinstance : (∀ c ∈ cs, ¬ g.HasInstance c) ↔
        ∀ c ∈ cs, ∀ r ∈ g.errors, ¬ c.hasError r = true :=
      forall₂_congr fun c hc => by simp [HasInstance, hno c hc]
    rw [hinstance, ← hfilter]
    split
    · rename_i hnil
      exact iff_of_true rfl hnil
    · rename_i hsome
      exact iff_of_false (Option.some_ne_none _) hsome

/-- **Of classes, a group contains those that it or an error of it is an instance of.** -/
theorem contains_classes_iff {cs : List ErrorClass} :
    g.contains (.classes cs) = true ↔ ∃ c ∈ cs, g.HasInstance c := by
  rw [contains, Option.isSome_iff_ne_none, Ne, subgroup_eq_none_iff]
  simp only [not_forall, not_not, exists_prop]

theorem contains_classes_append (cs ds : List ErrorClass) :
    g.contains (.classes (cs ++ ds)) = (g.contains (.classes cs) || g.contains (.classes ds)) := by
  rw [Bool.eq_iff_iff, Bool.or_eq_true, contains_classes_iff, contains_classes_iff,
    contains_classes_iff]
  simp only [List.mem_append, or_and_right, exists_or]

theorem contains_classes_eq_any (cs : List ErrorClass) :
    g.contains (.classes cs) = cs.any fun c => g.contains (.classes [c]) := by
  rw [Bool.eq_iff_iff, List.any_eq_true, contains_classes_iff]
  simp only [contains_classes_iff, List.mem_singleton, exists_eq_left]

theorem contains_classes_of_subset {g' : ErrorGroup} (hsubset : g.errors ⊆ g'.errors)
    {cs : List ErrorClass} (h : g.contains (.classes cs) = true) :
    g'.contains (.classes cs) = true := by
  rw [contains_classes_iff] at h ⊢
  obtain ⟨c, hc, hgroup | ⟨r, hr, herror⟩⟩ := h
  · exact ⟨c, hc, .inl hgroup⟩
  · exact ⟨c, hc, .inr ⟨r, hsubset hr, herror⟩⟩

/-! ## Membership -/

/-- **A group contains** the collected objects themselves, and the classes of what was collected and
of itself. -/
theorem contains_membership (g : ErrorGroup) :
    (∀ n, g.contains (.object n) = true ↔ ∃ r ∈ g.errors, r.serial = n) ∧
    (∀ objects : List Raised, (objects.map (·.serial)).Nodup → g.errors ⊆ objects →
      ∀ r ∈ objects, (g.contains (.object r.serial) = true ↔ r ∈ g.errors)) ∧
    g.contains (.object g.serial) = false ∧
    (∀ cs, g.contains (.classes cs) = true ↔
      ∃ c ∈ cs, c.hasGroup = true ∨ ∃ r ∈ g.errors, c.hasError r = true) ∧
    (∀ cs, g.contains (.classes cs) = cs.any fun c => g.contains (.classes [c])) ∧
    (∀ cs ds, g.contains (.classes (cs ++ ds)) =
      (g.contains (.classes cs) || g.contains (.classes ds))) ∧
    g.contains (.classes []) = false ∧
    (∀ (g' : ErrorGroup) more, g'.failures = g.failures ++ more →
      ∀ cs, g.contains (.classes cs) = true → g'.contains (.classes cs) = true) ∧
    ∀ (i : Nat) r (c : ErrorClass), g.errors[i]? = some r → c.hasError r = true →
      ∀ cs, c ∈ cs → g.contains (.classes cs) = true := by
  refine ⟨fun n => contains_object_iff, fun objects hnodup hsubset r hr =>
    contains_object_iff_mem hnodup hsubset hr, not_contains_of_le (Nat.le_refl _),
    fun cs => contains_classes_iff, contains_classes_eq_any, contains_classes_append, ?_, ?_, ?_⟩
  · rw [contains_classes_eq_any]
    rfl
  · intro g' more hmore cs h
    refine contains_classes_of_subset (fun r hr => ?_) h
    rw [errors, hmore, List.map_append]
    exact List.mem_append_left _ hr
  · intro i r c hr hc cs hmem
    exact contains_classes_iff.2 ⟨c, hmem, .inr ⟨r, List.mem_of_getElem? hr, hc⟩⟩

/-- Two equal errors, of which the second has a class of its own; a copy of them; then a group with
one error more. -/
theorem contains_membership_copies :
    let no : QueryError := .refused "no".text
    let first : Date := (Date.of? 2024 6 1).get rfl
    let second : Date := (Date.of? 2024 6 2).get rfl
    let inverted : QueryError := .invertedPeriod "created".text (.date second) (.date first)
    let g : ErrorGroup := (ErrorGroup.of? 0 [(0, no), (2, no)]).get rfl
    let g' : ErrorGroup := (ErrorGroup.of? 0 [(0, no), (2, no), (3, inverted)]).get rfl
    let objects : List Raised := [⟨0, no⟩, ⟨1, no⟩, ⟨7, no⟩]
    let own : ErrorClass := ⟨fun r => r.serial == 1, false⟩
    ((objects.map (·.serial)).Nodup ∧ g.errors ⊆ objects) ∧
      g.contains (.object 1) = true ∧ g.contains (.object 7) = false ∧
      g.errors[1]? = some ⟨1, no⟩ ∧ g.contains (.classes [.key, own]) = true ∧
      g.contains (.classes [.key]) = false ∧
      g'.failures = g.failures ++ [⟨3, 2, inverted⟩] ∧
      g'.contains (.classes [.key, own]) = true := by
  intro no first second inverted g g' objects own
  have hnodup : (objects.map (·.serial)).Nodup := by decide
  have hsubset : g.errors ⊆ objects := by decide
  have hmore : g'.failures = g.failures ++ [⟨3, 2, inverted⟩] := rfl
  obtain ⟨-, identity, -, classes, -, -, -, appended, position⟩ := contains_membership g
  have hown : g.contains (.classes [.key, own]) = true :=
    position 1 ⟨1, no⟩ own rfl rfl _ (List.mem_cons_of_mem _ List.mem_cons_self)
  refine ⟨⟨hnodup, hsubset⟩, ?_, ?_, rfl, hown, ?_, hmore, appended g' _ hmore _ hown⟩
  · exact (identity objects hnodup hsubset ⟨1, no⟩ (by decide)).2 (by decide)
  · rw [Bool.eq_false_iff]
    exact fun h => absurd ((identity objects hnodup hsubset ⟨7, no⟩ (by decide)).1 h) (by decide)
  · rw [Bool.eq_false_iff]
    exact fun h => absurd ((classes [.key]).1 h) (by simp [ErrorClass.key])

/-! ## Groups of an assembly -/

theorem serials_numbered (next : Nat) (fs : List (Int × QueryError)) :
    (numbered next fs).map (·.raised.serial) = List.range' next fs.length := by
  induction fs generalizing next with
  | nil => rfl
  | cons f fs ih => rw [numbered, List.map_cons, ih, List.length_cons, List.range'_succ]

theorem serials_of? {next : Nat} {fs : List (Int × QueryError)} (h : of? next fs = some g) :
    g.errors.map (·.serial) = List.range' next fs.length := by
  rw [errors, List.map_map, failures_of? h, ← serials_numbered]
  rfl

end ErrorGroup

theorem QueryResult.error_of_ofItems {next : Nat} {items : List Item} {r : QueryResult}
    (h : ofItems next items = .ok r) : ∃ fs, r.error = ErrorGroup.of? next fs := by
  unfold ofItems at h
  cases ha : assemble items with
  | error e =>
    rw [ha] at h
    cases h
  | ok p =>
    rw [ha] at h
    obtain rfl := Except.ok.inj h
    exact ⟨_, rfl⟩

theorem ErrorClass.hasError_invertedPeriod_iff {x : Raised} :
    invertedPeriod.hasError x = true ↔
      ∃ tag start finish, x.error = .invertedPeriod tag start finish := by
  obtain ⟨serial, e⟩ := x
  cases e <;> simp [invertedPeriod]

/-- The group of an assembly has an inverted period where a range is left out for its order. -/
theorem QueryResult.Exact.contains_invertedPeriod_iff {items : List Item} {r : QueryResult}
    (h : r.Exact items) {g : ErrorGroup} (hg : r.error = some g) :
    g.contains (.classes [.invertedPeriod]) = true ↔
      ∃ i ∈ items, ∃ tag start finish,
        i.render = .error (.query (.invertedPeriod tag start finish)) := by
  have hmem : ∀ e, (∃ x ∈ g.errors, x.error = e) ↔ ∃ i ∈ items, i.render = .error (.query e) := by
    intro e
    have herrors : g.errors.map (·.error) = (failing 0 items).map (·.2) := by
      rw [h.errors g hg, h.failures, List.map_map]
      rfl
    rw [← List.mem_map, herrors, List.mem_map]
    constructor
    · rintro ⟨⟨n, e⟩, hfail, rfl⟩
      obtain ⟨i, hi, hrender⟩ := mem_failing_iff.1 hfail
      exact ⟨i, List.mem_of_getElem? hi, hrender⟩
    · rintro ⟨i, hi, hrender⟩
      obtain ⟨n, hn⟩ := List.getElem?_of_mem hi
      exact ⟨(n, e), mem_failing_iff.2 ⟨i, hn, hrender⟩, rfl⟩
  rw [ErrorGroup.contains_classes_iff]
  constructor
  · rintro ⟨c, hc, hinstance⟩
    obtain rfl := List.mem_singleton.1 hc
    rcases hinstance with hgroup | ⟨x, hx, herror⟩
    -- A group of errors is no inverted period.
    · cases hgroup
    · obtain ⟨tag, start, finish, he⟩ := ErrorClass.hasError_invertedPeriod_iff.1 herror
      obtain ⟨i, hi, hrender⟩ := (hmem _).1 ⟨x, hx, he⟩
      exact ⟨i, hi, tag, start, finish, hrender⟩
  · rintro ⟨i, hi, tag, start, finish, hrender⟩
    obtain ⟨x, hx, he⟩ := (hmem _).2 ⟨i, hi, hrender⟩
    exact ⟨_, List.mem_singleton_self _, .inr ⟨x, hx,
      ErrorClass.hasError_invertedPeriod_iff.2 ⟨tag, start, finish, he⟩⟩⟩

/-! ## Sessions -/

namespace Workbench

/-- The last group of errors. -/
def lastGroup? (w : Workbench) : Option ErrorGroup := w.last.bind QueryResult.error

/-- The numbers of the last group are all different, and none of them is left to be drawn. -/
structure Numbered (w : Workbench) : Prop where
  nodup : ∀ g, w.lastGroup? = some g → (g.errors.map (·.serial)).Nodup
  lt_next : ∀ g, w.lastGroup? = some g → g.serial < w.nextSerial

theorem numbered_empty : empty.Numbered where
  nodup g h := by cases h
  lt_next g h := by cases h

/-- Whether two states have the same last result and the same number to draw next. -/
def SameLast (w w' : Workbench) : Prop := w'.last = w.last ∧ w'.nextSerial = w.nextSerial

theorem sameLast_self (w : Workbench) : w.SameLast w := ⟨rfl, rfl⟩

theorem sameLast_addFragment (w : Workbench) (slot : Text) (term : Term) (flag exclusions : Nat) :
    w.SameLast (w.addFragment slot term flag exclusions) := by
  unfold addFragment
  simp only
  split <;> exact ⟨rfl, rfl⟩

theorem sameLast_stepSet (w : Workbench) (slot : Text) (a : Assignment) :
    w.SameLast (w.stepSet slot a).1 := by
  unfold stepSet
  split
  · dsimp only
    split <;> exact ⟨rfl, rfl⟩
  · exact w.sameLast_self
  · exact w.sameLast_self

theorem sameLast_stepExclude (w : Workbench) (slot : Text) :
    w.SameLast (w.stepExclude slot).1 := by
  unfold stepExclude
  split
  · split <;> exact ⟨rfl, rfl⟩
  · exact w.sameLast_self

theorem sameLast_step (w : Workbench) {s : Step} (hs : ∀ slots, s ≠ .assemble slots) :
    w.SameLast (w.step s).1 := by
  cases s with
  | new slot term exclusion exclusions =>
    cases exclusion with
    | none => exact (w.addFlag false).sameLast_addFragment slot term _ exclusions
    | some source =>
      simp only [step]
      split
      · exact w.sameLast_addFragment slot term _ exclusions
      · exact w.sameLast_self
  | build slot qualifier timezoned exclusions =>
    simp only [step]
    split
    · rename_i f _
      exact (w.addFlag f.excluded).sameLast_addFragment slot f.term _ exclusions
    · exact w.sameLast_self
  | newForeign slot f => exact ⟨rfl, rfl⟩
  | newExclusion slot excluded => exact ⟨rfl, rfl⟩
  | «alias» slot target =>
    simp only [step]
    split <;> exact ⟨rfl, rfl⟩
  | set slot a => exact w.sameLast_stepSet slot a
  | exclude slot => exact w.sameLast_stepExclude slot
  | view slot => exact w.sameLast_self
  | compare a b =>
    rw [step_compare]
    exact w.sameLast_self
  | assemble slots => exact absurd rfl (hs slots)
  | contains q => exact w.sameLast_self

theorem Numbered.of_sameLast {w w' : Workbench} (h : w.Numbered) (hsame : w.SameLast w') :
    w'.Numbered := by
  obtain ⟨hlast, hnext⟩ := hsame
  have hgroup : w'.lastGroup? = w.lastGroup? := by rw [lastGroup?, lastGroup?, hlast]
  constructor
  · rw [hgroup]
    exact h.nodup
  · rw [hgroup, hnext]
    exact h.lt_next

/-- An assembly numbers the errors of its group one behind the other, and the group last. -/
theorem Numbered.stepAssemble {w : Workbench} (h : w.Numbered) (slots : List Text) :
    (w.stepAssemble slots).1.Numbered := by
  unfold Workbench.stepAssemble
  split
  · exact h
  · split
    · rename_i r hr
      obtain ⟨fs, hfs⟩ := QueryResult.error_of_ofItems hr
      constructor
      · intro g hg
        have herror : r.error = some g := hg
        rw [ErrorGroup.serials_of? (hfs.symm.trans herror)]
        exact List.nodup_range'
      · intro g hg
        have herror : r.error = some g := hg
        -- The next number to draw is the one behind that of the group.
        simp only [herror, Option.map_some, Option.getD_some]
        exact Nat.lt_succ_self _
    · exact h

theorem Numbered.step {w : Workbench} (h : w.Numbered) (s : Step) : (w.step s).1.Numbered := by
  by_cases hs : ∃ slots, s = .assemble slots
  · obtain ⟨slots, rfl⟩ := hs
    exact h.stepAssemble slots
  · exact h.of_sameLast (w.sameLast_step fun slots heq => hs ⟨slots, heq⟩)

theorem Numbered.run {w : Workbench} (h : w.Numbered) (steps : List Step) :
    (w.run steps).1.Numbered := by
  induction steps generalizing w with
  | nil => exact h
  | cons s steps ih => exact ih (h.step s)

theorem answerContains_eq {w : Workbench} {g : ErrorGroup} (hg : w.lastGroup? = some g)
    {q : Question} {s : Sought} (hs : w.sought? g q = some s) :
    w.answerContains q = .contained (some (g.contains s)) := by
  have hlast : w.last.bind QueryResult.error = some g := hg
  simp only [answerContains, hlast, hs]

/-- **In a session**, the last group contains each of its error objects, which are all different,
but no copy of one and not itself. -/
theorem run_contains (steps : List Step) {g : ErrorGroup}
    (hg : (empty.run steps).1.lastGroup? = some g) :
    let answer := fun q => ((empty.run steps).1.step (.contains q)).2
    (g.errors.map (·.serial)).Nodup ∧
    (∀ i < g.errors.length, answer (.failure i) = .contained (some true) ∧
      answer (.copy i) = .contained (some false)) ∧
    answer .group = .contained (some false) ∧
    ∀ cs, answer (.classes cs) = .contained (some (g.contains (.classes cs))) := by
  intro answer
  have hnumbered := numbered_empty.run steps
  have hasked : ∀ q s, (empty.run steps).1.sought? g q = some s →
      answer q = .contained (some (g.contains s)) := fun q s hs => answerContains_eq hg hs
  refine ⟨hnumbered.nodup g hg, fun i hi => ?_, ?_, fun cs => hasked _ _ rfl⟩
  · have hfound : g.errors[i]? = some g.errors[i] := List.getElem?_eq_getElem hi
    have hobject : g.contains (.object g.errors[i].serial) = true :=
      ErrorGroup.contains_object_iff.2 ⟨_, List.getElem_mem hi, rfl⟩
    -- A copy gets the next serial number, which is behind those of the group.
    have hcopy := ErrorGroup.not_contains_of_le (Nat.le_of_lt (hnumbered.lt_next g hg))
    constructor
    · rw [← hobject]
      exact hasked _ _ (by rw [sought?, hfound]; rfl)
    · rw [← hcopy]
      exact hasked _ _ (by rw [sought?, hfound]; rfl)
  · rw [← ErrorGroup.not_contains_of_le (Nat.le_refl g.serial)]
    exact hasked _ _ rfl

end Workbench

end SearchQuery
