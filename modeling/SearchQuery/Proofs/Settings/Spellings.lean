import SearchQuery.Proofs.Settings.Updates

/-!
# Storing over several spellings of a key

**Theorem (`load_store`).** After qualifiers were stored in any settings file that could be loaded,
it is loaded with the same flag, with the values that were stored, and with the values it had under
all other keys, except that a key keeps its old value where it is `Shadowed`.

A file written by hand may spell a key in several ways, with and without blanks around it. Loading
strips the keys, and the last spelling gives the value. Storing compares the keys as they are
written, so it replaces the value of the one spelling without blanks. If another spelling stands
behind that one, the stored value is never seen (`load_store_shadowed`).

What is loaded is said by `lastSpelling?`. One write changes it at one key (`lastSpelling?_put`) and
shadows nothing (`shadowed_put`), and a merge is a run of writes.
-/

namespace SearchQuery

namespace Settings

/-! ## Spellings -/

/-- The value under the last key that is a key but for blanks around it. -/
def lastSpelling? : Entries Text Json → Text → Option Json
  | [], _ => none
  | (key, v) :: r, k => (lastSpelling? r k).or (if trim key = k then some v else none)

/-- Another spelling of a key stands behind the key itself. -/
def Shadowed (stored : Entries Text Json) (k : Text) : Prop :=
  ∃ e ∈ (stored.dropWhile fun e => e.1 ≠ k).tail, trim e.1 = k

instance (stored : Entries Text Json) (k : Text) : Decidable (Shadowed stored k) :=
  inferInstanceAs (Decidable (∃ e ∈ _, _))

theorem lastSpelling?_eq_none_iff {stored : Entries Text Json} {k : Text} :
    lastSpelling? stored k = none ↔ ¬ ∃ e ∈ stored, trim e.1 = k := by
  induction stored with
  | nil => simp [lastSpelling?]
  | cons e r ih =>
    obtain ⟨key, v⟩ := e
    rw [lastSpelling?, Option.or_eq_none_iff, ih]
    by_cases hk : trim key = k <;> simp [hk]

theorem shadowed_cons {key k : Text} {v : Json} {r : Entries Text Json} :
    Shadowed ((key, v) :: r) k ↔
      if key = k then lastSpelling? r k ≠ none else Shadowed r k := by
  by_cases hk : key = k
  · rw [if_pos hk, ne_eq, lastSpelling?_eq_none_iff, not_not]
    simp [Shadowed, hk]
  · rw [if_neg hk]
    simp [Shadowed, hk]

/-- **One write**: the last spelling of the key that is written has the new value, unless it stands
behind the key. -/
theorem lastSpelling?_put (stored : Entries Text Json) {key : Text} (hkey : trim key = key)
    (v : Json) (k : Text) :
    lastSpelling? (stored.put key v) k =
      if key = k ∧ ¬ Shadowed stored k then some v else lastSpelling? stored k := by
  induction stored with
  | nil => simp [Entries.put, lastSpelling?, Shadowed, hkey]
  | cons e r ih =>
    obtain ⟨key₀, v₀⟩ := e
    by_cases hsame : key₀ = key
    -- The new value stands where the key stood, which a later spelling may shadow.
    · subst hsame
      simp only [Entries.put, if_pos, lastSpelling?, shadowed_cons, hkey]
      by_cases hk : key₀ = k
      · cases hl : lastSpelling? r k <;> simp [hk]
      · simp [hk]
    · simp only [Entries.put, if_neg hsame, lastSpelling?, ih, shadowed_cons]
      by_cases hk : key = k
      · subst hk
        by_cases hs : Shadowed r key <;> simp [hsame, hs]
      · simp [hk]

theorem shadowed_put (stored : Entries Text Json) {key : Text} (hkey : trim key = key) (v : Json)
    (k : Text) : Shadowed (stored.put key v) k ↔ Shadowed stored k := by
  induction stored with
  | nil =>
    rw [Entries.put, shadowed_cons]
    by_cases hk : key = k <;> simp [hk, lastSpelling?, Shadowed]
  | cons e r ih =>
    obtain ⟨key₀, v₀⟩ := e
    by_cases hsame : key₀ = key
    · rw [Entries.put, if_pos hsame, shadowed_cons, shadowed_cons]
    · rw [Entries.put, if_neg hsame, shadowed_cons, shadowed_cons, ih]
      by_cases hk : key₀ = k
      · have hne : ¬ (key = k ∧ ¬ Shadowed r k) := fun h => hsame (hk.trans h.1.symm)
        rw [if_pos hk, if_pos hk, lastSpelling?_put r hkey, if_neg hne]
      · rw [if_neg hk, if_neg hk]

theorem lastSpelling?_merge {stored later : Entries Text Json}
    (hkeys : ∀ key ∈ later.keys, trim key = key) (hnodup : later.keys.Nodup) (k : Text) :
    lastSpelling? (stored.merge later) k =
      if Shadowed stored k then lastSpelling? stored k
      else (later.find? k).or (lastSpelling? stored k) := by
  induction later generalizing stored with
  | nil => simp [Entries.find?]
  | cons e later ih =>
    obtain ⟨key, v⟩ := e
    obtain ⟨hkey, hrest⟩ := List.forall_mem_cons.1 hkeys
    obtain ⟨hnew, hnodup⟩ := List.nodup_cons.1 hnodup
    rw [Entries.merge_cons, ih hrest hnodup, lastSpelling?_put stored hkey, Entries.find?]
    simp only [shadowed_put stored hkey]
    by_cases hs : Shadowed stored k
    · simp [hs]
    · by_cases hk : key = k
      · subst hk
        -- The keys of the later mapping are distinct, so the rest has no value for it.
        have hnone : Entries.find? later key = none := Entries.find?_eq_none_of_not_mem hnew
        simp [hs, hnone]
      · simp [hs, hk]

/-- **What is loaded** under a key is the value of its last spelling, as a text without blanks
around it. -/
theorem find?_normalized (stored : Entries Text Json) (k : Text) :
    (normalized stored).find? k =
      if k = [] then none else (lastSpelling? stored k).map fun v => trim v.plain := by
  -- The entries are written one after the other, so the induction starts from any table.
  have hmerge : ∀ es : Entries Text Text,
      (es.merge ((stored.filter fun e => trim e.1 ≠ []).map fun e =>
          (trim e.1, trim e.2.plain))).find? k =
        if k = [] then es.find? k
        else ((lastSpelling? stored k).map fun v => trim v.plain).or (es.find? k) := by
    induction stored with
    | nil => intro es; simp [lastSpelling?]
    | cons e r ih =>
      obtain ⟨key, v⟩ := e
      intro es
      by_cases hblank : trim key = []
      · rw [List.filter_cons_of_neg (by simp [hblank]), ih es, lastSpelling?, hblank]
        by_cases hk : k = []
        · simp [hk]
        · simp [hk, Ne.symm hk]
      · rw [List.filter_cons_of_pos (by simp [hblank]), List.map_cons, Entries.merge_cons, ih,
          Entries.find?_put, lastSpelling?]
        by_cases hk : k = []
        · simp [hk, hblank]
        · rw [if_neg hk, if_neg hk]
          cases hl : lastSpelling? r k with
          | some w => simp
          | none => by_cases hkey : trim key = k <;> simp [hkey]
  rw [normalized, Entries.ofList, hmerge []]
  simp [Entries.find?]

/-- What holds of every entry that is not blank, with the blanks at its ends dropped, holds of what
is loaded. -/
theorem forall_mem_normalized {P : Text × Text → Prop} {stored : Entries Text Json}
    (h : ∀ e ∈ stored, trim e.1 ≠ [] → P (trim e.1, trim e.2.plain)) :
    ∀ e ∈ normalized stored, P e := by
  refine Entries.forall_mem_merge (fun e he => absurd he List.not_mem_nil) ?_
  intro e he
  obtain ⟨s, hs, rfl⟩ := List.mem_map.1 he
  obtain ⟨hs, hblank⟩ := List.mem_filter.1 hs
  exact h s hs (of_decide_eq_true hblank)

theorem trim_of_mem_normalized {stored : Entries Text Json} {e : Text × Text}
    (h : e ∈ normalized stored) : e.1 ≠ [] ∧ trim e.1 = e.1 ∧ trim e.2 = e.2 := by
  have hall : ∀ e ∈ normalized stored, e.1 ≠ [] ∧ trim e.1 = e.1 ∧ trim e.2 = e.2 :=
    forall_mem_normalized fun _ _ hblank => ⟨hblank, trim_trim _, trim_trim _⟩
  exact hall e h

theorem normalized_mapValues {m : Entries Text Text} (hk : m.keys.Nodup)
    (ht : ∀ e ∈ m, e.1 ≠ [] ∧ trim e.1 = e.1 ∧ trim e.2 = e.2) :
    normalized (m.mapValues .string) = m := by
  have hfilter : ((m.mapValues Json.string).filter fun e => trim e.1 ≠ []) =
      m.mapValues Json.string := by
    rw [List.filter_eq_self]
    intro e' he'
    obtain ⟨e, he, rfl⟩ := List.mem_map.1 he'
    obtain ⟨hne, hkey, -⟩ := ht e he
    simpa [hkey] using hne
  have hmap : ((m.mapValues Json.string).map fun e => (trim e.1, trim e.2.plain)) = m := by
    rw [Entries.mapValues, List.map_map]
    have hid : ∀ e ∈ m, ((fun e => (trim e.1, trim e.2.plain)) ∘ fun e => (e.1, Json.string e.2)) e =
        id e := by
      intro e he
      obtain ⟨-, hkey, hvalue⟩ := ht e he
      exact Prod.ext hkey hvalue
    rw [List.map_congr_left hid, List.map_id]
  rw [normalized, hfilter, hmap, Entries.ofList_of_nodup hk]

/-! ## Storing -/

/-- A key and a value without blanks around them, which are read as they are written, the key not
empty. -/
structure CleanEntry (e : Text × Text) : Prop where
  key_ne_nil : e.1 ≠ []
  trim_key : trim e.1 = e.1
  trim_value : trim e.2 = e.2
  key_joined : Joined e.1
  value_joined : Joined e.2

instance (e : Text × Text) : Decidable (CleanEntry e) :=
  decidable_of_iff (e.1 ≠ [] ∧ trim e.1 = e.1 ∧ trim e.2 = e.2 ∧ Joined e.1 ∧ Joined e.2)
    ⟨fun ⟨h₁, h₂, h₃, h₄, h₅⟩ => ⟨h₁, h₂, h₃, h₄, h₅⟩, fun ⟨h₁, h₂, h₃, h₄, h₅⟩ =>
      ⟨h₁, h₂, h₃, h₄, h₅⟩⟩

theorem CleanEntry.trimmed {e : Text × Text} (h : CleanEntry e) :
    e.1 ≠ [] ∧ trim e.1 = e.1 ∧ trim e.2 = e.2 := ⟨h.key_ne_nil, h.trim_key, h.trim_value⟩

theorem CleanEntry.joined {e : Text × Text} (h : CleanEntry e) : Joined e.1 ∧ Joined e.2 :=
  ⟨h.key_joined, h.value_joined⟩

theorem find?_normalized_merge {stored : Entries Text Json} {d : Entries Text Text}
    (hnodup : d.keys.Nodup) (hd : ∀ e ∈ d, CleanEntry e) (k : Text) :
    (normalized (stored.merge (d.mapValues .string))).find? k =
      if Shadowed stored k then (normalized stored).find? k
      else (d.find? k).or ((normalized stored).find? k) := by
  have hkeys : ∀ key ∈ (d.mapValues Json.string).keys, trim key = key := by
    intro key hkey
    rw [Entries.keys_mapValues] at hkey
    obtain ⟨e, he, rfl⟩ := List.mem_map.1 hkey
    exact (hd e he).trim_key
  have hnodup' : (d.mapValues Json.string).keys.Nodup := by rwa [Entries.keys_mapValues]
  have hvalue : ((d.find? k).map Json.string).map (fun v => trim v.plain) = d.find? k := by
    cases hf : d.find? k with
    | none => rfl
    | some v => exact congrArg some (hd _ (Entries.mem_of_find? hf)).trim_value
  rw [find?_normalized, find?_normalized, lastSpelling?_merge hkeys hnodup',
    Entries.find?_mapValues]
  by_cases hk : k = []
  · have hnone : d.find? k = none := by
      cases hf : d.find? k with
      | none => rfl
      | some v => exact absurd hk (hd _ (Entries.mem_of_find? hf)).key_ne_nil
    simp [hk ▸ hnone, hk]
  · rw [if_neg hk, if_neg hk]
    by_cases hs : Shadowed stored k
    · rw [if_pos hs, if_pos hs]
    · rw [if_neg hs, if_neg hs, Option.map_or, hvalue]

theorem load_eq_ok_iff {fs : Files} {path : Path} {s : Settings} :
    load fs path = .ok s ↔ ∃ ms ds, members fs path = .ok ms ∧ storedDefaults path ms = .ok ds ∧
      storedTimezoned path ms = .ok s.timezoned ∧ s.defaults = normalized ds := by
  unfold load
  cases hms : members fs path with
  | error e => simp
  | ok ms =>
    cases hds : storedDefaults path ms with
    | error e => simp [hds]
    | ok ds =>
      cases hz : storedTimezoned path ms with
      | error e => simp [hds, hz]
      | ok z =>
        obtain ⟨L, z'⟩ := s
        simp [hds, hz, eq_comm, and_comm]

theorem storedTimezoned_put_defaults (path : Path) (ms : Entries Text Json) (v : Json) :
    storedTimezoned path (ms.put defaultsKey v) = storedTimezoned path ms := by
  have hne : defaultsKey ≠ timezonedKey := by decide
  rw [storedTimezoned, storedTimezoned, Entries.find?_put, if_neg hne]

/-- A store over a file that could be loaded merges into what is stored, and keeps the flag. -/
theorem load_of_store {fs fs' : Files} {path : Path} {s : Settings} {d : Entries Text Text}
    (hs : load fs path = .ok s) (hd : ∀ e ∈ d, Joined e.1 ∧ Joined e.2)
    (h : store fs path d = ⟨fs', none⟩) :
    ∃ ms ds, members fs path = .ok ms ∧ storedDefaults path ms = .ok ds ∧
      s.defaults = normalized ds ∧
      load fs' path = .ok ⟨normalized (ds.merge (d.mapValues .string)), s.timezoned⟩ := by
  obtain ⟨ms, ds, hms, hds, hms'⟩ := members_store hd h
  obtain ⟨ms₁, ds₁, hms₁, hds₁, hz, hdefaults⟩ := load_eq_ok_iff.1 hs
  obtain rfl := Except.ok.inj (hms.symm.trans hms₁)
  obtain rfl := Except.ok.inj (hds.symm.trans hds₁)
  refine ⟨ms, ds, hms, hds, hdefaults, ?_⟩
  refine load_eq_ok_iff.2 ⟨_, _, hms', storedDefaults_put _ _ _, ?_, rfl⟩
  rw [storedTimezoned_put_defaults, hz]

theorem load_of_store_new {fs fs' : Files} {path : Path} (hr : fs.read path = .ok none)
    {d : Entries Text Text} (hnodup : d.keys.Nodup) (hd : ∀ e ∈ d, CleanEntry e)
    (h : store fs path d = ⟨fs', none⟩) : load fs' path = .ok ⟨d, false⟩ := by
  have hmembers : members fs path = .ok [] := by rw [members, hr]
  have hs : load fs path = .ok ⟨[], false⟩ := by
    rw [load, hmembers]
    rfl
  obtain ⟨ms, ds, hms, hds, -, hload⟩ := load_of_store hs (fun e he => (hd e he).joined) h
  obtain rfl := Except.ok.inj (hmembers.symm.trans hms)
  obtain rfl : [] = ds := Except.ok.inj hds
  have hkeys : (d.mapValues Json.string).keys.Nodup := by rwa [Entries.keys_mapValues]
  have hmerge : Entries.merge [] (d.mapValues Json.string) = d.mapValues .string :=
    Entries.ofList_of_nodup hkeys
  rw [hload, hmerge, normalized_mapValues hnodup fun e he => (hd e he).trimmed]

/-- **What was stored is loaded**, over any file that could be loaded: the flag is the same, a key
that is shadowed in the file has the value it had, and every other key has the value that was
stored, or else the value it had. -/
theorem load_store {fs fs' : Files} {path : Path} {s : Settings} {d : Entries Text Text}
    (hs : load fs path = .ok s) (hnodup : d.keys.Nodup) (hd : ∀ e ∈ d, CleanEntry e)
    (h : store fs path d = ⟨fs', none⟩) :
    ∃ ms ds L, members fs path = .ok ms ∧ storedDefaults path ms = .ok ds ∧
      load fs' path = .ok ⟨L, s.timezoned⟩ ∧
      ∀ k, L.find? k =
        if Shadowed ds k then s.defaults.find? k else (d.find? k).or (s.defaults.find? k) := by
  have hjoined : ∀ e ∈ d, Joined e.1 ∧ Joined e.2 := fun e he =>
    ⟨(hd e he).key_joined, (hd e he).value_joined⟩
  obtain ⟨ms, ds, hms, hds, hdefaults, hload⟩ := load_of_store hs hjoined h
  refine ⟨ms, ds, _, hms, hds, hload, ?_⟩
  intro k
  rw [find?_normalized_merge hnodup hd, hdefaults]

/-- A file with one spelling of a key, with blanks around it, and a value that is a number. -/
theorem load_store_spelt :
    let path := Path.ofText "default.json".text
    let d : Entries Text Text := [("org".text, "new".text), ("text".text, "x".text)]
    let fs : Files := ⟨[], [(path.place, Utf8.encode
      "\x7b\"timezoned\": true, \"defaults\": \x7b\" org \": \"a\", \"label\": 1\x7d\x7d".text)]⟩
    load fs path = .ok ⟨[("org".text, "a".text), ("label".text, "1".text)], true⟩ ∧
      d.keys.Nodup ∧ (∀ e ∈ d, CleanEntry e) ∧ (store fs path d).failure = none ∧
      ∃ L, load (store fs path d).files path = .ok ⟨L, true⟩ ∧
        L.find? "org".text = some "new".text ∧ L.find? "label".text = some "1".text := by
  intro path d fs
  have hread : (load fs path).toOption.any
      (· = ⟨[("org".text, "a".text), ("label".text, "1".text)], true⟩) = true := by
    decide +kernel
  obtain ⟨s, hs, hcheck⟩ := exists_ok_of_any hread
  obtain rfl := of_decide_eq_true hcheck
  have hclear : (members fs path).toOption.any (fun ms =>
      (storedDefaults path ms).toOption.any fun ds =>
        ¬ Shadowed ds "org".text ∧ ¬ Shadowed ds "label".text) = true := by decide +kernel
  have hnodup : d.keys.Nodup := by decide
  have hd : ∀ e ∈ d, CleanEntry e := by decide
  have hnone : (store fs path d).failure = none := by decide +kernel
  have hstore : store fs path d = ⟨(store fs path d).files, none⟩ := by rw [← hnone]
  obtain ⟨ms, ds, L, hms, hds, hload, hfind⟩ := load_store hs hnodup hd hstore
  obtain ⟨horg, hlabel⟩ : ¬ Shadowed ds "org".text ∧ ¬ Shadowed ds "label".text := by
    rw [hms] at hclear
    simp only [Except.toOption, Option.any_some, hds] at hclear
    exact of_decide_eq_true hclear
  refine ⟨hs, hnodup, hd, hnone, L, hload, ?_, ?_⟩
  · rw [hfind, if_neg horg]
    rfl
  · rw [hfind, if_neg hlabel]
    rfl

/-- With another spelling of the key behind it, the value that was stored is not loaded. -/
theorem load_store_shadowed :
    let path := Path.ofText "default.json".text
    let d : Entries Text Text := [("org".text, "new".text)]
    let fs : Files := ⟨[], [(path.place, Utf8.encode
      "\x7b\"defaults\": \x7b\"org\": \"a\", \" org\": \"b\"\x7d\x7d".text)]⟩
    load fs path = .ok ⟨[("org".text, "b".text)], false⟩ ∧ d.keys.Nodup ∧
      (∀ e ∈ d, CleanEntry e) ∧ (store fs path d).failure = none ∧
      load (store fs path d).files path = .ok ⟨[("org".text, "b".text)], false⟩ := by
  intro path d fs
  have hold : ∀ fs', (load fs' path).toOption.any (· = ⟨[("org".text, "b".text)], false⟩) = true →
      load fs' path = .ok ⟨[("org".text, "b".text)], false⟩ := by
    intro fs' hcheck
    obtain ⟨s, hs, hcheck⟩ := exists_ok_of_any hcheck
    rw [hs, of_decide_eq_true hcheck]
  exact ⟨hold _ (by decide +kernel), by decide, by decide, by decide +kernel,
    hold _ (by decide +kernel)⟩

end Settings

end SearchQuery
