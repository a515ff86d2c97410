import SearchQuery.Settings

/-!
# Failures of the settings

What a call on the settings can fail with, and when (`Faulty`). Whatever is wrong with the file as a
document is a fault of its own kind, `isConfigFault`. Three failures are of no such kind: the
system refuses the path, the bytes are not UTF-8, or a whole number has too many digits; the last
two come from reading the file alone.

That there is nothing to store is a failure of the request and not of the file, so it is left out:
`faulty_of_store` is about calls with something to store.
-/

namespace SearchQuery

namespace Settings

/-- What a call on the settings of a path fails with, when there is something to store. -/
inductive Faulty (fs : Files) (path : Path) : SettingsError → Prop
  /-- The file is no document of settings. -/
  | document {e : SettingsError} (h : e.isConfigFault = true) : Faulty fs path e
  | system (e : FileError) : Faulty fs path (.unusable e)
  | encoding {f : Utf8.Fault} (h : members fs path = .error (.undecodable f)) :
      Faulty fs path (.undecodable f)
  | number {n : Nat} (h : members fs path = .error (.longInteger n)) :
      Faulty fs path (.longInteger n)

variable {fs : Files} {path : Path} {e : SettingsError}

theorem faulty_of_members (h : members fs path = .error e) : Faulty fs path e := by
  cases e with
  | unusable o => exact .system o
  | undecodable f => exact .encoding h
  | longInteger n => exact .number h
  | nothingGiven =>
    -- Reading a file is not a request to store.
    unfold members at h
    split at h
    · cases h
    · cases h
    · unfold membersOfBytes at h
      split at h
      · cases h
      · split at h <;> cases h
  | tooDeep c => exact .document rfl
  | notJson p => exact .document rfl
  | notObject p => exact .document rfl
  | defaultsNotObject p => exact .document rfl
  | timezonedNotBool p v => exact .document rfl

theorem isConfigFault_of_storedDefaults {ms : Entries Text Json}
    (h : storedDefaults path ms = .error e) : e.isConfigFault = true := by
  unfold storedDefaults at h
  split at h
  · cases h
  · cases h
  · split at h
    · cases h
    · cases h
      rfl

theorem isConfigFault_of_storedTimezoned {ms : Entries Text Json}
    (h : storedTimezoned path ms = .error e) : e.isConfigFault = true := by
  unfold storedTimezoned at h
  split at h
  · cases h
  · cases h
  · cases h
    rfl

theorem faulty_of_load (h : load fs path = .error e) : Faulty fs path e := by
  unfold load at h
  split at h
  next hms =>
    cases h
    exact faulty_of_members hms
  next =>
    split at h
    next hds =>
      cases h
      exact .document (isConfigFault_of_storedDefaults hds)
    next =>
      split at h
      next hz =>
        cases h
        exact .document (isConfigFault_of_storedTimezoned hz)
      next => cases h

/-- A flag that is no truth value keeps the settings from being loaded. -/
theorem load_of_storedTimezoned {ms : Entries Text Json} (hms : members fs path = .ok ms)
    (h : storedTimezoned path ms = .error e) :
    ∃ e', load fs path = .error e' ∧ e'.isConfigFault = true := by
  cases hds : storedDefaults path ms with
  | error e' =>
    refine ⟨e', ?_, isConfigFault_of_storedDefaults hds⟩
    rw [load, hms]
    simp only [hds]
  | ok ds =>
    refine ⟨e, ?_, isConfigFault_of_storedTimezoned h⟩
    rw [load, hms]
    simp only [hds, h]

theorem faulty_of_save {ms : Entries Text Json} (h : (save fs path ms).failure = some e) :
    Faulty fs path e := by
  obtain ⟨o, -, rfl⟩ := Option.map_eq_some_iff.1 h
  exact .system o

theorem faulty_of_store {d : Entries Text Text} (hd : d ≠ [])
    (h : (store fs path d).failure = some e) : Faulty fs path e := by
  unfold store at h
  rw [if_neg hd] at h
  split at h
  next hms =>
    cases h
    exact faulty_of_members hms
  next ms hms =>
    cases hds : storedDefaults path ms with
    | error e' =>
      simp only [withDefaults, hds] at h
      cases h
      exact .document (isConfigFault_of_storedDefaults hds)
    | ok ds =>
      simp only [withDefaults, hds] at h
      -- Reading is over, so what fails now is the write.
      exact faulty_of_save h

theorem faulty_of_clear (h : (clear fs path).failure = some e) : Faulty fs path e := by
  unfold clear at h
  split at h
  next hms =>
    cases h
    exact faulty_of_members hms
  next =>
    split at h
    · cases h
    · cases h
    · exact faulty_of_save h

end Settings

end SearchQuery
