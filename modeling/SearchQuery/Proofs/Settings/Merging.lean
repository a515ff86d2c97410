import SearchQuery.Proofs.Settings.Updates
import SearchQuery.Proofs.Unchanged

/-!
# Storing twice

**Theorem (`store_store`).** Storing some qualifiers and then others leaves the files that one store
of all of them leaves, byte for byte: the later ones merged into the earlier. If the one store
fails, the first of the two fails in the same way, and no file changes.

The second store reads what the first has written, so the file has to come back as it was saved
(`members_store`). Then both ways save the same members: a merge of a merge is one merge
(`Entries.merge_merge`). What is saved first is not seen behind what is saved last (`save_save`),
and a save that fails does so whatever there is to save (`save_of_failure`).
-/

namespace SearchQuery

namespace Settings

variable {fs : Files} {path : Path}

/-! ## Saving twice -/

theorem save_eq_ok_iff {ms : Entries Text Json} (h : ms ≠ []) {fs' : Files} :
    save fs path ms = ⟨fs', none⟩ ↔
      fs.write path (Utf8.encode (Json.document ms)) = ⟨fs', none⟩ := by
  rw [save_eq_write h]
  generalize fs.write path (Utf8.encode (Json.document ms)) = change
  obtain ⟨files, failure⟩ := change
  simp

theorem save_of_failure {ms ms' : Entries Text Json} (h : ms ≠ []) (h' : ms' ≠ []) {fs' : Files}
    {e : SettingsError} (hs : save fs path ms = ⟨fs', some e⟩) :
    save fs path ms' = ⟨fs', some e⟩ := by
  rw [save_eq_write h] at hs
  generalize hw : fs.write path (Utf8.encode (Json.document ms)) = change at hs
  obtain ⟨files, failure⟩ := change
  cases failure with
  | none => simp at hs
  | some o =>
    rw [save_eq_write h', Files.write_of_failure hw]
    exact hs

theorem save_save {ms ms' : Entries Text Json} (h : ms ≠ []) (h' : ms' ≠ []) {fs₁ : Files}
    (hs : save fs path ms = ⟨fs₁, none⟩) : save fs₁ path ms' = save fs path ms' := by
  have hw := (save_eq_ok_iff h).1 hs
  rw [save_eq_write h', save_eq_write h', Files.write_write hw]

/-! ## Storing twice -/

/-- **A store behind a store** saves what the merge of both saves. -/
theorem store_behind {d₁ d₂ : Entries Text Text} (h₁ : d₁ ≠ []) (h₂ : d₂ ≠ [])
    (hk : d₁.keys.Nodup) (hj : ∀ e ∈ d₁, Joined e.1 ∧ Joined e.2) {fs₁ : Files}
    (h : store fs path d₁ = ⟨fs₁, none⟩) :
    store fs₁ path d₂ = store fs path (d₁.merge d₂) := by
  obtain ⟨ms, ds, hms, hds, hms₁⟩ := members_store hj h
  have hk' : (d₁.mapValues Json.string).keys.Nodup := by rwa [Entries.keys_mapValues]
  have hsave : save fs path (ms.put defaultsKey (.object (ds.merge (d₁.mapValues .string)))) =
      ⟨fs₁, none⟩ := (store_eq_save h₁ hms hds).symm.trans h
  rw [store_eq_save h₂ hms₁ (storedDefaults_put _ _ _),
    store_eq_save (Entries.merge_ne_nil h₂) hms hds, Entries.put_put, Entries.mapValues_merge,
    Entries.merge_merge hk', save_save (Entries.put_ne_nil _ _ _) (Entries.put_ne_nil _ _ _) hsave]

theorem store_of_failure {d d' : Entries Text Text} (hd : d ≠ []) (hd' : d' ≠ []) {fs' : Files}
    {e : SettingsError} (h : store fs path d = ⟨fs', some e⟩) :
    store fs path d' = ⟨fs', some e⟩ := by
  -- Nothing up to the write depends on what is stored.
  cases hms : members fs path with
  | error e' =>
    rw [store, if_neg hd, hms] at h
    rw [store, if_neg hd', hms]
    exact h
  | ok ms =>
    cases hds : storedDefaults path ms with
    | error e' =>
      rw [store, if_neg hd, hms] at h
      rw [store, if_neg hd', hms]
      simpa only [withDefaults, hds] using h
    | ok ds =>
      rw [store_eq_save hd hms hds] at h
      rw [store_eq_save hd' hms hds]
      exact save_of_failure (Entries.put_ne_nil _ _ _) (Entries.put_ne_nil _ _ _) h

theorem exists_store {d d' : Entries Text Text} (hd : d ≠ []) (hd' : d' ≠ []) {fs' : Files}
    (h : store fs path d = ⟨fs', none⟩) : ∃ fs₁, store fs path d' = ⟨fs₁, none⟩ := by
  cases hs : store fs path d' with
  | mk files failure =>
    cases failure with
    | none => exact ⟨files, rfl⟩
    | some e => cases h.symm.trans (store_of_failure hd' hd hs)

/-- **Two stores are one.** Where a store of both tables succeeds, storing first the one and then
the other succeeds and leaves the same files; where it fails, the first of the two fails in the same
way, and what the files hold is as it was. -/
theorem store_store {d₁ d₂ : Entries Text Text} (h₁ : d₁ ≠ []) (h₂ : d₂ ≠ [])
    (hk : d₁.keys.Nodup) (hj : ∀ e ∈ d₁, Joined e.1 ∧ Joined e.2) :
    (∀ fs', store fs path (d₁.merge d₂) = ⟨fs', none⟩ →
      ∃ fs₁, store fs path d₁ = ⟨fs₁, none⟩ ∧ store fs₁ path d₂ = ⟨fs', none⟩) ∧
    (∀ fs' e, store fs path (d₁.merge d₂) = ⟨fs', some e⟩ →
      store fs path d₁ = ⟨fs', some e⟩ ∧ fs'.contents = fs.contents) := by
  have hboth : d₁.merge d₂ ≠ [] := Entries.merge_ne_nil h₂
  constructor
  · intro fs' h
    obtain ⟨fs₁, hfirst⟩ := exists_store hboth h₁ h
    exact ⟨fs₁, hfirst, (store_behind h₁ h₂ hk hj hfirst).trans h⟩
  · intro fs' e h
    have hkeep := (confined_store fs path (d₁.merge d₂)).failed (by rw [h]; simp)
    rw [h] at hkeep
    exact ⟨store_of_failure hboth h₁ h, hkeep⟩

/-- Two tables with a key in common, over a file whose defaults are null and stand between other
members. -/
theorem store_store_null :
    let path := Path.ofText "default.json".text
    let d₁ : Entries Text Text := [("org".text, "a".text), ("label".text, "b".text)]
    let d₂ : Entries Text Text := [("label".text, "caf\u00e9".text), ("repo".text, "c".text)]
    let fs : Files := ⟨[], [(path.place, Utf8.encode
      "\x7b\"a\": [1, -2.5], \"defaults\": null, \"b\": true\x7d".text)]⟩
    d₁ ≠ [] ∧ d₂ ≠ [] ∧ d₁.keys.Nodup ∧ (∀ e ∈ d₁, Joined e.1 ∧ Joined e.2) ∧
      (store fs path (d₁.merge d₂)).failure = none ∧
      ∃ fs₁, store fs path d₁ = ⟨fs₁, none⟩ ∧
        store fs₁ path d₂ = ⟨(store fs path (d₁.merge d₂)).files, none⟩ := by
  intro path d₁ d₂ fs
  have h₁ : d₁ ≠ [] := List.cons_ne_nil _ _
  have h₂ : d₂ ≠ [] := List.cons_ne_nil _ _
  have hk : d₁.keys.Nodup := by decide
  have hj : ∀ e ∈ d₁, Joined e.1 ∧ Joined e.2 := by decide
  have hnone : (store fs path (d₁.merge d₂)).failure = none := by decide +kernel
  have hstore : store fs path (d₁.merge d₂) = ⟨(store fs path (d₁.merge d₂)).files, none⟩ := by
    rw [← hnone]
  exact ⟨h₁, h₂, hk, hj, hnone, (store_store h₁ h₂ hk hj).1 _ hstore⟩

end Settings

end SearchQuery
