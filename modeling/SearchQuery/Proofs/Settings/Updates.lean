import SearchQuery.Proofs.Files
import SearchQuery.Proofs.Json.Restorable
import SearchQuery.Settings

/-!
# What storing and clearing keep

**Theorem (`other_members_survive`).** Storing defaults and clearing them keep every other member
of a settings file, with its value and in its place. Stored defaults are the ones that were there
with the new ones merged into them.

Both read the whole file and write all of it again, so the file has to be one that is written back
as it was read. That is `restorable_members`: whatever was read is restorable, and a merge and a
removal leave it so. What a successful call writes is said once, by `store_cases` and
`clear_cases`, and what is read from the file then by `members_save`.
-/

namespace SearchQuery

theorem exists_ok_of_any {ε α : Type} {result : Except ε α} {check : α → Bool}
    (h : result.toOption.any check = true) : ∃ a, result = .ok a ∧ check a = true := by
  cases result with
  | error e => cases h
  | ok a => exact ⟨a, rfl, h⟩

namespace Settings

/-! ## What a call does -/

theorem save_eq_write {fs : Files} {path : Path} {ms : Entries Text Json} (h : ms ≠ []) :
    save fs path ms = ⟨(fs.write path (Utf8.encode (Json.document ms))).files,
      (fs.write path (Utf8.encode (Json.document ms))).failure.map .unusable⟩ := by
  rw [save, if_neg h]

/-- **A store that succeeds** writes the members with the new defaults merged into the old. -/
theorem store_cases {fs fs' : Files} {path : Path} {d : Entries Text Text}
    (h : store fs path d = ⟨fs', none⟩) :
    ∃ ms ds, members fs path = .ok ms ∧ storedDefaults path ms = .ok ds ∧
      save fs path (ms.put defaultsKey (.object (ds.merge (d.mapValues .string)))) =
        ⟨fs', none⟩ := by
  unfold store at h
  by_cases hd : d = []
  · rw [if_pos hd] at h
    cases h
  · rw [if_neg hd] at h
    cases hms : members fs path with
    | error e => simp [hms] at h
    | ok ms =>
      cases hds : storedDefaults path ms with
      | error e => simp [hms, withDefaults, hds] at h
      | ok ds =>
        simp only [hms, withDefaults, hds] at h
        exact ⟨ms, ds, rfl, hds, h⟩

theorem store_eq_save {fs : Files} {path : Path} {ms ds : Entries Text Json}
    {d : Entries Text Text} (hd : d ≠ []) (hms : members fs path = .ok ms)
    (hds : storedDefaults path ms = .ok ds) :
    store fs path d =
      save fs path (ms.put defaultsKey (.object (ds.merge (d.mapValues .string)))) := by
  rw [store, if_neg hd, hms]
  simp only [withDefaults, hds]
  rfl

theorem store_succeeds_iff {fs : Files} {path : Path} {ms ds : Entries Text Json}
    {d : Entries Text Text} (hd : d ≠ []) (hms : members fs path = .ok ms)
    (hds : storedDefaults path ms = .ok ds) :
    (store fs path d).failure = none ↔ fs.Writable path := by
  rw [store_eq_save hd hms hds, save_eq_write (Entries.put_ne_nil _ _ _), Option.map_eq_none_iff,
    ← Files.writable_iff]

theorem clear_of_null {fs : Files} {path : Path} {ms : Entries Text Json}
    (hms : members fs path = .ok ms) (h : ∀ v, ms.find? defaultsKey = some v → v = .null) :
    clear fs path = ⟨fs, none⟩ := by
  rw [clear, hms]
  cases hv : ms.find? defaultsKey with
  | none => simp only [hv]
  | some v =>
    obtain rfl := h v hv
    simp only [hv]

theorem clear_eq_save {fs : Files} {path : Path} {ms : Entries Text Json}
    (hms : members fs path = .ok ms) {v : Json} (hv : ms.find? defaultsKey = some v)
    (hne : v ≠ .null) : clear fs path = save fs path (ms.erase defaultsKey) := by
  rw [clear, hms]
  cases v with
  | null => exact absurd rfl hne
  | _ => simp only [hv]

/-- **A clear that succeeds** finds no defaults, or null, and changes nothing; or it writes the
members without their defaults. -/
theorem clear_cases {fs fs' : Files} {path : Path} (h : clear fs path = ⟨fs', none⟩) :
    ∃ ms, members fs path = .ok ms ∧
      ((∀ v, ms.find? defaultsKey = some v → v = .null) ∧ fs' = fs ∨
        save fs path (ms.erase defaultsKey) = ⟨fs', none⟩) := by
  unfold clear at h
  cases hms : members fs path with
  | error e => simp [hms] at h
  | ok ms =>
    refine ⟨ms, rfl, ?_⟩
    simp only [hms] at h
    split at h
    next hfind =>
      cases h
      refine .inl ⟨?_, rfl⟩
      intro v hv
      cases hfind.symm.trans hv
    next hfind =>
      cases h
      refine .inl ⟨?_, rfl⟩
      intro v hv
      cases hfind.symm.trans hv
      rfl
    next => exact .inr h

/-! ## Where a file is -/

theorem exists_read_of_members {fs : Files} {path : Path} {ms : Entries Text Json}
    (h : members fs path = .ok ms) (hne : ms ≠ []) : ∃ bytes, fs.read path = .ok (some bytes) := by
  unfold members at h
  split at h
  next => cases h
  next =>
    cases h
    exact absurd rfl hne
  next bytes hr => exact ⟨bytes, hr⟩

theorem exists_save_of_read {fs : Files} {path : Path} {bytes : Bytes}
    (hr : fs.read path = .ok (some bytes)) (ms : Entries Text Json) :
    ∃ fs', save fs path ms = ⟨fs', none⟩ ∧ fs'.Writable path := by
  by_cases hnil : ms = []
  · obtain ⟨fs', hremove, -, hw⟩ := Files.remove_of_read hr
    refine ⟨fs', ?_, hw⟩
    rw [save, if_pos hnil, hremove]
    rfl
  · obtain ⟨fs', hwrite, hr'⟩ := (Files.writable_of_read hr).write (Utf8.encode (Json.document ms))
    refine ⟨fs', ?_, Files.writable_of_read hr'⟩
    rw [save, if_neg hnil, hwrite]
    rfl

/-! ## What is read afterwards -/

theorem restorable_members {fs : Files} {path : Path} {ms : Entries Text Json}
    (h : members fs path = .ok ms) : Json.Restorable Json.depthLimit (.object ms) := by
  unfold members at h
  split at h
  · cases h
  · cases h
    obtain ⟨depth, hdepth⟩ := Json.exists_depthLimit_eq
    rw [hdepth]
    exact Json.restorable_empty_object
  · unfold membersOfBytes at h
    split at h
    · cases h
    · split at h
      next => cases h
      next => cases h
      next => cases h
      next hread =>
        cases h
        exact Json.restorable_of_read hread
      next => cases h

/-- **The settings file reads back as it was written.** -/
theorem members_save {fs fs' : Files} {path : Path} {ms : Entries Text Json}
    (hms : Json.Restorable Json.depthLimit (.object ms)) (h : save fs path ms = ⟨fs', none⟩) :
    members fs' path = .ok ms := by
  unfold save at h
  by_cases hnil : ms = []
  · simp only [if_pos hnil, Change.mk.injEq, Option.map_eq_none_iff] at h
    have hremove : fs.remove path = ⟨fs', none⟩ := by
      rw [← h.1, ← h.2]
    rw [members, Files.read_remove hremove, hnil]
  · simp only [if_neg hnil, Change.mk.injEq, Option.map_eq_none_iff] at h
    have hwrite : fs.write path (Utf8.encode (Json.document ms)) = ⟨fs', none⟩ := by
      rw [← h.1, ← h.2]
    obtain ⟨t, hd, hj⟩ := Json.read_decode_document hms
    rw [members, Files.read_write hwrite]
    simp only [membersOfBytes, hd, hj]

theorem storedDefaults_cases {path : Path} {ms ds : Entries Text Json}
    (h : storedDefaults path ms = .ok ds) :
    ms.find? defaultsKey = some (.object ds) ∨
      ds = [] ∧ ∀ v, ms.find? defaultsKey = some v → v.isEmpty = true := by
  unfold storedDefaults at h
  split at h
  next hfind =>
    cases h
    refine .inr ⟨rfl, ?_⟩
    intro v hv
    cases hfind.symm.trans hv
  next hfind =>
    cases h
    exact .inl hfind
  next v _ hfind =>
    split at h
    next hempty =>
      cases h
      refine .inr ⟨rfl, ?_⟩
      intro v' hv
      cases hfind.symm.trans hv
      exact hempty
    next => cases h

theorem storedDefaults_put (path : Path) (ms ds : Entries Text Json) :
    storedDefaults path (ms.put defaultsKey (.object ds)) = .ok ds := by
  rw [storedDefaults, Entries.find?_put, if_pos rfl]

theorem restorable_storedDefaults {path : Path} {ms ds : Entries Text Json} {d : Nat}
    (hms : Json.Restorable (d + 2) (.object ms)) (h : storedDefaults path ms = .ok ds) :
    Json.Restorable (d + 1) (.object ds) := by
  rcases storedDefaults_cases h with hfind | ⟨rfl, -⟩
  · exact (Json.restorable_object_iff.1 hms).2.2 _ (Entries.mem_of_find? hfind)
  · exact Json.restorable_empty_object

/-- **What is read after a store**: the members as they were, with the defaults merged. -/
theorem members_store {fs fs' : Files} {path : Path} {d : Entries Text Text}
    (hd : ∀ e ∈ d, Joined e.1 ∧ Joined e.2) (h : store fs path d = ⟨fs', none⟩) :
    ∃ ms ds, members fs path = .ok ms ∧ storedDefaults path ms = .ok ds ∧
      members fs' path =
        .ok (ms.put defaultsKey (.object (ds.merge (d.mapValues .string)))) := by
  obtain ⟨ms, ds, hms, hds, hsave⟩ := store_cases h
  -- The limit leaves room for the file and for the object in it.
  obtain ⟨depth, hdepth⟩ := Json.exists_depthLimit_eq
  have hr : Json.Restorable (depth + 2) (.object ms) := hdepth ▸ restorable_members hms
  have hlater : ∀ e ∈ d.mapValues Json.string, Joined e.1 ∧ Json.Restorable depth e.2 := by
    intro e' he'
    obtain ⟨e, he, rfl⟩ := List.mem_map.1 he'
    exact ⟨(hd e he).1, .string (hd e he).2⟩
  have hmerged := (restorable_storedDefaults hr hds).merge hlater
  have hkey : Joined defaultsKey := by decide
  have hput := hr.put hkey hmerged
  exact ⟨ms, ds, hms, hds, members_save (hdepth ▸ hput) hsave⟩

/-- **What is read after a clear**: the members without defaults, or all of them where the defaults
are null or missing. -/
theorem members_clear {fs fs' : Files} {path : Path} (h : clear fs path = ⟨fs', none⟩) :
    ∃ ms ms', members fs path = .ok ms ∧ members fs' path = .ok ms' ∧
      ms'.erase defaultsKey = ms.erase defaultsKey ∧
      ∀ v, ms'.find? defaultsKey = some v → v = .null := by
  obtain ⟨ms, hms, ⟨hnull, rfl⟩ | hsave⟩ := clear_cases h
  · exact ⟨ms, ms, hms, hms, rfl, hnull⟩
  · obtain ⟨depth, hdepth⟩ := Json.exists_depthLimit_eq
    have hr : Json.Restorable (depth + 2) (.object ms) := hdepth ▸ restorable_members hms
    refine ⟨ms, ms.erase defaultsKey, hms, members_save (hdepth ▸ hr.erase _) hsave,
      Entries.erase_erase _ _, ?_⟩
    intro v hv
    rw [Entries.find?_erase_self] at hv
    cases hv

/-! ## Every other member -/

/-- **Every other member survives.** Storing and clearing keep the members besides the defaults,
with their values and in their order. A store leaves the defaults in their place, or puts them
last where there were none, and merges into the object that was there; nothing and what is empty
count as no defaults. -/
theorem other_members_survive {fs : Files} {path : Path} {ms : Entries Text Json}
    (hms : members fs path = .ok ms) :
    (∀ d fs', (∀ e ∈ d, Joined e.1 ∧ Joined e.2) → store fs path d = ⟨fs', none⟩ →
      ∃ ms' ds : Entries Text Json, members fs' path = .ok ms' ∧
        ms'.erase defaultsKey = ms.erase defaultsKey ∧
        (defaultsKey ∈ ms.keys → ms'.keys = ms.keys) ∧
        (defaultsKey ∉ ms.keys → ms'.keys = ms.keys ++ [defaultsKey]) ∧
        ms'.find? defaultsKey = some (.object (ds.merge (d.mapValues .string))) ∧
        (ms.find? defaultsKey = some (.object ds) ∨
          ds = [] ∧ ∀ v, ms.find? defaultsKey = some v → v.isEmpty = true)) ∧
    (∀ fs', clear fs path = ⟨fs', none⟩ →
      ∃ ms', members fs' path = .ok ms' ∧
        ms'.erase defaultsKey = ms.erase defaultsKey ∧
        ∀ v, ms'.find? defaultsKey = some v → v = .null) := by
  constructor
  · intro d fs' hd h
    obtain ⟨ms₁, ds, hms₁, hds, hms'⟩ := members_store hd h
    obtain rfl := Except.ok.inj (hms.symm.trans hms₁)
    refine ⟨_, ds, hms', Entries.erase_put _ _ _, ?_, ?_, ?_, storedDefaults_cases hds⟩
    · intro hk
      rw [Entries.keys_put, if_pos hk]
    · intro hk
      rw [Entries.keys_put, if_neg hk]
    · rw [Entries.find?_put, if_pos rfl]
  · intro fs' h
    obtain ⟨ms₁, ms', hms₁, hms', herase, hnull⟩ := members_clear h
    obtain rfl := Except.ok.inj (hms.symm.trans hms₁)
    exact ⟨ms', hms', herase, hnull⟩

/-- A file with members on both sides of its defaults, one of them with numbers in an array. -/
theorem other_members_survive_between :
    let path := Path.ofText "default.json".text
    let d : Entries Text Text := [("org".text, "b".text), ("label".text, "c".text)]
    let fs : Files := ⟨[], [(path.place, Utf8.encode
      "\x7b\"a\": [1, -2.5], \"defaults\": \x7b\"org\": \"x\"\x7d, \"b\": null\x7d".text)]⟩
    ∃ ms ms', members fs path = .ok ms ∧ (∀ e ∈ d, Joined e.1 ∧ Joined e.2) ∧
      (store fs path d).failure = none ∧ members (store fs path d).files path = .ok ms' ∧
      ms'.erase defaultsKey = ms.erase defaultsKey ∧
      ms'.keys = ["a".text, defaultsKey, "b".text] := by
  intro path d fs
  have hread : ((members fs path).toOption.any fun ms =>
      ms.keys = ["a".text, defaultsKey, "b".text]) = true := by decide +kernel
  obtain ⟨ms, hms, hcheck⟩ := exists_ok_of_any hread
  have hkeys : ms.keys = ["a".text, defaultsKey, "b".text] := of_decide_eq_true hcheck
  have hd : ∀ e ∈ d, Joined e.1 ∧ Joined e.2 := by decide
  have hnone : (store fs path d).failure = none := by decide +kernel
  have hs : store fs path d = ⟨(store fs path d).files, none⟩ := by rw [← hnone]
  obtain ⟨ms', -, hms', herase, hkept, -⟩ := (other_members_survive hms).1 d _ hd hs
  exact ⟨ms, ms', hms, hd, hnone, hms', herase, (hkept (by rw [hkeys]; decide)).trans hkeys⟩

end Settings

end SearchQuery
