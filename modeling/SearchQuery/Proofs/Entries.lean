import SearchQuery.Entries

/-!
# Tables without repeated keys

Every write keeps the keys apart (`nodup_put`), so a merge into a table with distinct keys has
distinct keys. Such a table is its own list of entries: writing them one after the other onto
nothing gives the table again (`ofList_of_nodup`).

A function on the values can be applied before or after a merge (`mapValues_merge`). A removal and a
write touch one key: the others are found as before (`find?_erase_of_ne`), and without that key the
table is the same (`erase_put`).

Merging two tables after each other is merging them as one (`merge_merge`), because a write into a
table shows behind whatever that table is merged into. A table is its keys in their order and what
is found under them (`eq_of_keys`).
-/

namespace SearchQuery

namespace Entries

variable {κ α β : Type}

/-- The table with a function applied to every value. -/
def mapValues (f : α → β) (es : Entries κ α) : Entries κ β := es.map fun e => (e.1, f e.2)

@[simp] theorem keys_mapValues (f : α → β) (es : Entries κ α) : (es.mapValues f).keys = es.keys := by
  simp [keys, mapValues]

variable [DecidableEq κ]

/-! ## Distinct keys -/

theorem put_of_not_mem {es : Entries κ α} {key : κ} (h : key ∉ es.keys) (value : α) :
    es.put key value = es ++ [(key, value)] := by
  induction es with
  | nil => rfl
  | cons e r ih =>
    obtain ⟨k, v⟩ := e
    simp only [keys, List.map_cons, List.mem_cons, not_or] at h
    rw [put, if_neg (Ne.symm h.1), ih h.2]
    rfl

theorem nodup_put {es : Entries κ α} (h : es.keys.Nodup) (key : κ) (value : α) :
    (es.put key value).keys.Nodup := by
  rw [keys_put]
  by_cases hk : key ∈ es.keys
  · rwa [if_pos hk]
  · rw [if_neg hk]
    refine List.nodup_append.2 ⟨h, List.pairwise_singleton _ _, ?_⟩
    intro a ha b hb
    obtain rfl := List.mem_singleton.1 hb
    rintro rfl
    exact hk ha

theorem nodup_merge {es : Entries κ α} (h : es.keys.Nodup) (later : Entries κ α) :
    (es.merge later).keys.Nodup := by
  induction later generalizing es with
  | nil => exact h
  | cons e later ih => exact ih (nodup_put h e.1 e.2)

theorem nodup_ofList (es : List (κ × α)) : (ofList es).keys.Nodup :=
  nodup_merge (show (keys ([] : Entries κ α)).Nodup from List.nodup_nil) es

/-- Entries under new and distinct keys go to the end as they are. -/
theorem merge_of_disjoint {es later : Entries κ α} (h : (es.keys ++ later.keys).Nodup) :
    es.merge later = es ++ later := by
  induction later generalizing es with
  | nil => exact (List.append_nil es).symm
  | cons e later ih =>
    obtain ⟨k, v⟩ := e
    have hk : k ∉ es.keys := fun hm =>
      (List.nodup_append.1 h).2.2 k hm k List.mem_cons_self rfl
    have hnext : (keys (es ++ [(k, v)]) ++ keys later).Nodup := by
      simpa [keys, List.append_assoc] using h
    rw [merge_cons, put_of_not_mem hk, ih hnext, List.append_assoc]
    rfl

/-- A table with distinct keys is its own list of entries. -/
theorem ofList_of_nodup {es : Entries κ α} (h : es.keys.Nodup) : ofList es = es :=
  merge_of_disjoint h

/-! ## Other values under the same keys -/

theorem mapValues_put (f : α → β) (es : Entries κ α) (key : κ) (value : α) :
    (es.put key value).mapValues f = (es.mapValues f).put key (f value) := by
  induction es with
  | nil => rfl
  | cons e r ih =>
    obtain ⟨k, v⟩ := e
    by_cases hk : k = key
    · simp [put, mapValues, hk]
    · simp only [mapValues, put, List.map_cons, if_neg hk] at ih ⊢
      rw [ih]

theorem mapValues_merge (f : α → β) (es later : Entries κ α) :
    (es.merge later).mapValues f = (es.mapValues f).merge (later.mapValues f) := by
  induction later generalizing es with
  | nil => rfl
  | cons e later ih =>
    obtain ⟨k, v⟩ := e
    rw [merge_cons, ih, mapValues_put]
    rfl

/-- The keys of a merge come from the keys alone. -/
theorem keys_merge_congr {es es' later later' : Entries κ α} (hk : es.keys = es'.keys)
    (hl : later.keys = later'.keys) : (es.merge later).keys = (es'.merge later').keys := by
  have hunit : ∀ fs : Entries κ α, fs.mapValues (fun _ => ()) = fs.keys.map fun k => (k, ()) := by
    intro fs
    simp [mapValues, keys]
  have hmerge : ∀ fs gs : Entries κ α, (fs.merge gs).keys =
      (merge (fs.keys.map fun k => (k, ())) (gs.keys.map fun k => (k, ()))).keys := by
    intro fs gs
    rw [← keys_mapValues fun _ => (), mapValues_merge, hunit, hunit]
  rw [hmerge, hmerge, hk, hl]

theorem find?_mapValues (f : α → β) (es : Entries κ α) (key : κ) :
    (es.mapValues f).find? key = (es.find? key).map f := by
  induction es with
  | nil => rfl
  | cons e r ih =>
    obtain ⟨k, v⟩ := e
    by_cases hk : k = key
    · simp [mapValues, find?, hk]
    · simpa [mapValues, find?, hk] using ih

/-! ## Entries of a merge -/

theorem mem_put {es : Entries κ α} {key : κ} {value : α} {e : κ × α}
    (h : e ∈ es.put key value) : e ∈ es ∨ e = (key, value) := by
  induction es with
  | nil => exact Or.inr (List.mem_singleton.1 h)
  | cons d r ih =>
    obtain ⟨k, v⟩ := d
    rw [put] at h
    by_cases hk : k = key
    · rw [if_pos hk] at h
      rcases List.mem_cons.1 h with rfl | hr
      · exact Or.inr (by rw [hk])
      · exact Or.inl (List.mem_cons_of_mem _ hr)
    · rw [if_neg hk] at h
      rcases List.mem_cons.1 h with rfl | hr
      · exact Or.inl List.mem_cons_self
      · exact (ih hr).imp_left (List.mem_cons_of_mem _)

/-- Whatever holds of all entries of two tables holds of those of their merge. -/
theorem forall_mem_merge {P : κ × α → Prop} {es later : Entries κ α} (hes : ∀ e ∈ es, P e)
    (hl : ∀ e ∈ later, P e) : ∀ e ∈ es.merge later, P e := by
  induction later generalizing es with
  | nil => exact hes
  | cons d later ih =>
    refine ih ?_ fun e he => hl e (List.mem_cons_of_mem _ he)
    intro e he
    rcases mem_put he with he | rfl
    · exact hes e he
    · exact hl _ List.mem_cons_self

theorem put_ne_nil (es : Entries κ α) (key : κ) (value : α) : es.put key value ≠ [] := by
  cases es with
  | nil => exact List.cons_ne_nil _ _
  | cons e r => rw [put]; split <;> exact List.cons_ne_nil _ _

theorem merge_ne_nil {es later : Entries κ α} (h : later ≠ []) : es.merge later ≠ [] := by
  -- The last write decides, so the induction is on the later entries from their end.
  rcases List.eq_nil_or_concat later with rfl | ⟨init, last, rfl⟩
  · exact absurd rfl h
  · rw [List.concat_eq_append, merge_append]
    exact put_ne_nil _ _ _

/-! ## Writes one after the other -/

theorem mem_keys_put {es : Entries κ α} {key : κ} {value : α} {k : κ} :
    k ∈ (es.put key value).keys ↔ k ∈ es.keys ∨ k = key := by
  rw [keys_put]
  by_cases hm : key ∈ es.keys
  · rw [if_pos hm]
    refine ⟨.inl, ?_⟩
    rintro (h | rfl)
    · exact h
    · exact hm
  · rw [if_neg hm, List.mem_append, List.mem_singleton]

@[simp] theorem put_put (es : Entries κ α) (key : κ) (first second : α) :
    (es.put key first).put key second = es.put key second := by
  induction es with
  | nil => simp [put]
  | cons e r ih =>
    obtain ⟨k, v⟩ := e
    by_cases hk : k = key
    · simp [put, hk]
    · simp [put, hk, ih]

/-- A write to a key that is there moves nothing, so it can be made before another one. -/
theorem put_comm {es : Entries κ α} {key other : κ} (hm : key ∈ es.keys) (hne : other ≠ key)
    (value otherValue : α) :
    (es.put other otherValue).put key value = (es.put key value).put other otherValue := by
  induction es with
  | nil => exact absurd hm List.not_mem_nil
  | cons e r ih =>
    obtain ⟨k, v⟩ := e
    by_cases hk : k = key
    · subst hk
      simp [put, Ne.symm hne]
    -- The entry of the key keeps its place, whichever of the two is put first.
    · have hr : key ∈ keys r := (List.mem_cons.1 hm).resolve_left (Ne.symm hk)
      by_cases ho : k = other
      · simp [put, ho, hne]
      · simp [put, hk, ho, ih hr]

theorem merge_put_comm {es later : Entries κ α} {key : κ} (hm : key ∈ es.keys)
    (hl : key ∉ later.keys) (value : α) :
    (es.merge later).put key value = (es.put key value).merge later := by
  induction later generalizing es with
  | nil => rfl
  | cons e later ih =>
    obtain ⟨k, v⟩ := e
    obtain ⟨hne, hl⟩ := not_or.1 (mt List.mem_cons.2 hl)
    rw [merge_cons, merge_cons, ih (mem_keys_put.2 (.inl hm)) hl, put_comm hm (Ne.symm hne)]

/-- **A write into a table** shows behind whatever the table is merged into. -/
theorem merge_put {later : Entries κ α} (h : later.keys.Nodup) (es : Entries κ α) (key : κ)
    (value : α) : es.merge (later.put key value) = (es.merge later).put key value := by
  induction later generalizing es with
  | nil => rfl
  | cons e later ih =>
    obtain ⟨k, v⟩ := e
    obtain ⟨hk, hl⟩ := List.nodup_cons.1 h
    by_cases hkey : k = key
    · subst hkey
      have hm : k ∈ (es.put k v).keys := mem_keys_put.2 (.inr rfl)
      rw [put, if_pos rfl, merge_cons, merge_cons, merge_put_comm hm hk, put_put]
    · rw [put, if_neg hkey, merge_cons, merge_cons, ih hl]

/-- **Merging twice** is merging what the second table makes of the first. -/
theorem merge_merge {first : Entries κ α} (h : first.keys.Nodup) (es second : Entries κ α) :
    (es.merge first).merge second = es.merge (first.merge second) := by
  induction second generalizing first with
  | nil => rfl
  | cons e second ih =>
    obtain ⟨k, v⟩ := e
    rw [merge_cons, merge_cons, ← merge_put h, ih (nodup_put h k v)]

/-! ## What is found -/

theorem mem_of_find? {es : Entries κ α} {key : κ} {value : α} (h : es.find? key = some value) :
    (key, value) ∈ es := by
  induction es with
  | nil => cases h
  | cons e r ih =>
    obtain ⟨k, v⟩ := e
    rw [find?] at h
    by_cases hk : k = key
    · rw [if_pos hk] at h
      rw [hk, Option.some.inj h]
      exact List.mem_cons_self
    · rw [if_neg hk] at h
      exact List.mem_cons_of_mem _ (ih h)

theorem find?_eq_none_of_not_mem {es : Entries κ α} {key : κ} (h : key ∉ es.keys) :
    es.find? key = none := by
  cases hf : es.find? key with
  | none => rfl
  | some v => exact absurd (List.mem_map.2 ⟨_, mem_of_find? hf, rfl⟩) h

/-- **A table is its keys** in their order and what is found under them. -/
theorem eq_of_keys {es fs : Entries κ α} (hk : es.keys = fs.keys) (hn : es.keys.Nodup)
    (hf : ∀ key, es.find? key = fs.find? key) : es = fs := by
  induction es generalizing fs with
  | nil => exact (List.map_eq_nil_iff.1 hk.symm).symm
  | cons e r ih =>
    obtain ⟨k, v⟩ := e
    cases fs with
    | nil => cases hk
    | cons d s =>
      obtain ⟨k', v'⟩ := d
      obtain ⟨hkey, hkeys⟩ := List.cons.inj hk
      obtain rfl : k = k' := hkey
      obtain ⟨hnew, hn⟩ := List.nodup_cons.1 hn
      have hvalue := hf k
      simp only [find?, if_pos, Option.some.injEq] at hvalue
      subst hvalue
      rw [ih hkeys hn]
      intro key
      by_cases hsame : k = key
      · subst hsame
        -- The first key has no second entry, so both look-ups behind it find nothing.
        have hnew' : k ∉ keys s := by rwa [keys, ← hkeys]
        rw [find?_eq_none_of_not_mem hnew, find?_eq_none_of_not_mem hnew']
      · simpa [find?, hsame] using hf key

/-! ## Removal -/

theorem find?_erase_self (es : Entries κ α) (key : κ) : (es.erase key).find? key = none := by
  induction es with
  | nil => rfl
  | cons e r ih =>
    obtain ⟨k, v⟩ := e
    by_cases hk : k = key
    · simpa [erase, hk] using ih
    · simpa [erase, hk, find?] using ih

theorem find?_erase_of_ne (es : Entries κ α) {key other : κ} (h : other ≠ key) :
    (es.erase key).find? other = es.find? other := by
  induction es with
  | nil => rfl
  | cons e r ih =>
    obtain ⟨k, v⟩ := e
    by_cases hk : k = key
    · subst hk
      simpa [erase, find?, Ne.symm h] using ih
    · by_cases ho : k = other
      · subst ho
        simp [erase, find?, hk]
      · simpa [erase, find?, hk, ho] using ih

/-- A write does not touch the entries under other keys. -/
theorem erase_put (es : Entries κ α) (key : κ) (value : α) :
    (es.put key value).erase key = es.erase key := by
  induction es with
  | nil => simp [put, erase]
  | cons e r ih =>
    obtain ⟨k, v⟩ := e
    by_cases hk : k = key
    · simp [put, erase, hk]
    · simpa [put, erase, hk] using ih

theorem erase_erase (es : Entries κ α) (key : κ) : (es.erase key).erase key = es.erase key := by
  simp [erase, List.filter_filter]

end Entries

end SearchQuery
