import SearchQuery.Proofs.Settings.Spellings

/-!
# Clearing

**Theorem (`clear_empties`).** Clearing the defaults of any file that holds an object, or of no
file, succeeds. No defaults are loaded afterwards, whatever they were before, and loading succeeds
exactly when the flag is a truth value or missing. Clearing again changes nothing, and what is
stored next is all the defaults there are.

Loading, storing and clearing each have a notion of their own of what counts as no defaults. Behind
a clear the defaults are missing or null (`members_clear`), and there the three agree: nothing is
loaded and there is nothing to merge into (`storedDefaults_of_null`), and nothing is left to clear
(`clear_of_null`).
-/

namespace SearchQuery

namespace Settings

variable {fs : Files} {path : Path} {ms : Entries Text Json}

/-! ## No defaults -/

theorem storedDefaults_of_null (h : ∀ v, ms.find? defaultsKey = some v → v = .null) :
    storedDefaults path ms = .ok [] := by
  rw [storedDefaults]
  cases hv : ms.find? defaultsKey with
  | none => rfl
  | some v =>
    obtain rfl := h v hv
    rfl

/-! ## The flag -/

theorem storedTimezoned_eq_ok_iff {z : Bool} :
    storedTimezoned path ms = .ok z ↔ ms.find? timezonedKey = none ∧ z = false ∨
      ms.find? timezonedKey = some (.bool z) := by
  rw [storedTimezoned]
  cases hv : ms.find? timezonedKey with
  | none => simp [eq_comm]
  | some v => cases v <;> simp

theorem storedTimezoned_of_erase {ms' : Entries Text Json}
    (h : ms'.erase defaultsKey = ms.erase defaultsKey) :
    storedTimezoned path ms' = storedTimezoned path ms := by
  have hne : timezonedKey ≠ defaultsKey := by decide
  have hfind : ms'.find? timezonedKey = ms.find? timezonedKey := by
    rw [← Entries.find?_erase_of_ne ms' hne, h, Entries.find?_erase_of_ne ms hne]
  rw [storedTimezoned, storedTimezoned, hfind]

/-! ## Clearing -/

/-- **A clear succeeds**, and files can be where they could be before. -/
theorem exists_clear (hms : members fs path = .ok ms) :
    ∃ fs', clear fs path = ⟨fs', none⟩ ∧ (fs'.Writable path ↔ fs.Writable path) := by
  by_cases hnull : ∀ v, ms.find? defaultsKey = some v → v = .null
  · exact ⟨fs, clear_of_null hms hnull, Iff.rfl⟩
  · simp only [not_forall] at hnull
    obtain ⟨v, hv, hne⟩ := hnull
    have hfile : ms ≠ [] := by
      rintro rfl
      cases hv
    obtain ⟨bytes, hr⟩ := exists_read_of_members hms hfile
    obtain ⟨fs', hsave, hw⟩ := exists_save_of_read hr (ms.erase defaultsKey)
    exact ⟨fs', (clear_eq_save hms hv hne).trans hsave, iff_of_true hw (Files.writable_of_read hr)⟩

theorem read_clear_of_only {v : Json} (hms : members fs path = .ok [(defaultsKey, v)])
    (hne : v ≠ .null) {fs' : Files} (h : clear fs path = ⟨fs', none⟩) :
    fs'.read path = .ok none := by
  have hv : Entries.find? [(defaultsKey, v)] defaultsKey = some v := if_pos rfl
  have hnil : Entries.erase [(defaultsKey, v)] defaultsKey = [] := by simp [Entries.erase]
  have hsave : save fs path [] = ⟨fs', none⟩ := by
    rw [← hnil, ← clear_eq_save hms hv hne, h]
  rw [save, if_pos rfl, Change.mk.injEq, Option.map_eq_none_iff] at hsave
  have hremove : fs.remove path = ⟨fs', none⟩ := by
    rw [← hsave.1, ← hsave.2]
  exact Files.read_remove hremove

/-- **What is loaded where there are no defaults** is the flag alone. -/
theorem load_of_null (hms : members fs path = .ok ms)
    (hnull : ∀ v, ms.find? defaultsKey = some v → v = .null) {s : Settings} :
    load fs path = .ok s ↔ s.defaults = [] ∧ storedTimezoned path ms = .ok s.timezoned := by
  have hds : storedDefaults path ms = .ok [] := storedDefaults_of_null hnull
  rw [load_eq_ok_iff]
  constructor
  · rintro ⟨ms₁, ds, hms₁, hds₁, hz, hdefaults⟩
    obtain rfl := Except.ok.inj (hms.symm.trans hms₁)
    obtain rfl := Except.ok.inj (hds.symm.trans hds₁)
    exact ⟨hdefaults, hz⟩
  · rintro ⟨hdefaults, hz⟩
    exact ⟨ms, [], hms, hds, hz, hdefaults⟩

theorem members_store_of_null (hms : members fs path = .ok ms)
    (hnull : ∀ v, ms.find? defaultsKey = some v → v = .null) {d : Entries Text Text}
    (hk : d.keys.Nodup) (hj : ∀ e ∈ d, Joined e.1 ∧ Joined e.2) {fs' : Files}
    (h : store fs path d = ⟨fs', none⟩) :
    members fs' path = .ok (ms.put defaultsKey (.object (d.mapValues .string))) := by
  obtain ⟨ms₁, ds, hms₁, hds, hms'⟩ := members_store hj h
  obtain rfl := Except.ok.inj (hms.symm.trans hms₁)
  obtain rfl := Except.ok.inj ((storedDefaults_of_null hnull).symm.trans hds)
  have hmerge : Entries.merge [] (d.mapValues Json.string) = d.mapValues .string :=
    Entries.ofList_of_nodup (by rwa [Entries.keys_mapValues])
  rw [hms', hmerge]

/-- **Clearing empties, repairs and is done once.** It succeeds over every object and over no file,
whatever the defaults were. Afterwards no defaults are loaded, and the flag as it was, if it is one.
No file is left where the defaults were everything, and not null. A second clear changes nothing. A
store then succeeds wherever a file could be, and so wherever one was, and leaves the defaults that
were stored and no others. (`Joined` leaves out the texts in which the two halves of one character
stand apart, which would be read back as the character.) -/
theorem clear_empties (hms : members fs path = .ok ms) :
    ∃ fs', clear fs path = ⟨fs', none⟩ ∧
      (∀ s, load fs' path = .ok s ↔ s.defaults = [] ∧
        (ms.find? timezonedKey = none ∧ s.timezoned = false ∨
          ms.find? timezonedKey = some (.bool s.timezoned))) ∧
      (∀ v, ms = [(defaultsKey, v)] → v ≠ .null → fs'.read path = .ok none) ∧
      clear fs' path = ⟨fs', none⟩ ∧
      ∀ d : Entries Text Text, d ≠ [] → d.keys.Nodup → (∀ e ∈ d, Joined e.1 ∧ Joined e.2) →
        ((store fs' path d).failure = none ↔ fs.Writable path) ∧
        (∀ bytes, fs.read path = .ok (some bytes) → (store fs' path d).failure = none) ∧
        ∀ fs'', store fs' path d = ⟨fs'', none⟩ →
          ∃ ms'', members fs'' path = .ok ms'' ∧
            ms''.find? defaultsKey = some (.object (d.mapValues .string)) := by
  obtain ⟨fs', hclear, hwritable⟩ := exists_clear hms
  obtain ⟨ms₁, ms', hms₁, hms', herase, hnull⟩ := members_clear hclear
  obtain rfl := Except.ok.inj (hms.symm.trans hms₁)
  -- What is stored under the key is now nothing or null.
  have hds : storedDefaults path ms' = .ok [] := storedDefaults_of_null hnull
  refine ⟨fs', hclear, ?_, ?_, clear_of_null hms' hnull, ?_⟩
  · intro s
    rw [load_of_null hms' hnull, storedTimezoned_of_erase herase, storedTimezoned_eq_ok_iff]
  · rintro v rfl hne
    exact read_clear_of_only hms hne hclear
  · intro d hd hk hj
    have hstore : (store fs' path d).failure = none ↔ fs.Writable path :=
      (store_succeeds_iff hd hms' hds).trans hwritable
    refine ⟨hstore, fun bytes hr => hstore.2 (Files.writable_of_read hr), ?_⟩
    intro fs'' h
    refine ⟨_, members_store_of_null hms' hnull hk hj h, ?_⟩
    rw [Entries.find?_put, if_pos rfl]

/-- Defaults that are an array, which can be neither loaded nor merged into, beside a flag. -/
theorem clear_empties_array :
    let path := Path.ofText "default.json".text
    let d : Entries Text Text := [("org".text, "b".text), ("label".text, "c".text)]
    let fs : Files := ⟨[], [(path.place, Utf8.encode
      "\x7b\"defaults\": [\"org\"], \"timezoned\": true\x7d".text)]⟩
    ∃ ms fs', members fs path = .ok ms ∧ clear fs path = ⟨fs', none⟩ ∧
      load fs' path = .ok ⟨[], true⟩ ∧ clear fs' path = ⟨fs', none⟩ ∧
      ∃ fs'' ms'', store fs' path d = ⟨fs'', none⟩ ∧ members fs'' path = .ok ms'' ∧
        ms''.find? defaultsKey = some (.object (d.mapValues .string)) := by
  intro path d fs
  have hread : (members fs path).toOption.any (fun ms =>
      (storedTimezoned path ms).toOption.any (· = true)) = true := by decide +kernel
  obtain ⟨ms, hms, hcheck⟩ := exists_ok_of_any hread
  obtain ⟨z, hz, hcheck⟩ := exists_ok_of_any hcheck
  obtain rfl := of_decide_eq_true hcheck
  have hflag : ms.find? timezonedKey = some (.bool true) := by
    rcases storedTimezoned_eq_ok_iff.1 hz with ⟨-, hfalse⟩ | hflag
    · cases hfalse
    · exact hflag
  have hk : d.keys.Nodup := by decide
  have hj : ∀ e ∈ d, Joined e.1 ∧ Joined e.2 := by decide
  obtain ⟨fs', hclear, hload, -, hagain, hstore⟩ := clear_empties hms
  obtain ⟨-, hsucceeds, hstored⟩ := hstore d (List.cons_ne_nil _ _) hk hj
  have hs : store fs' path d = ⟨(store fs' path d).files, none⟩ := by rw [← hsucceeds _ rfl]
  obtain ⟨ms'', hms'', hdefaults⟩ := hstored _ hs
  exact ⟨ms, fs', hms, hclear, (hload ⟨[], true⟩).2 ⟨rfl, .inr hflag⟩, hagain, _, ms'', hs, hms'',
    hdefaults⟩

end Settings

end SearchQuery
