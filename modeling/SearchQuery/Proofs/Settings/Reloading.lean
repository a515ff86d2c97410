import SearchQuery.Proofs.Json.Texts
import SearchQuery.Proofs.Settings.Spellings

/-!
# Storing what was loaded

**Theorem (`load_store_loaded`).** Whatever a settings file holds, if it can be loaded and defaults
are loaded from it, then storing these defaults succeeds, and afterwards the same settings are
loaded, with the defaults in the same order.

Loading and storing do not agree on which keys are the same, so the file may well change: where all
spellings of a key have blanks around them, the key itself is put behind them. What is loaded does
not change. Every value stays, because a key is either shadowed, and then keeps the value that was
loaded, or takes it (`find?_normalized_merge`). Every place stays, because a spelling that is put
last is one of a key that has its place already (`keys_normalized_merge`).
-/

namespace SearchQuery

namespace Settings

/-! ## Places -/

theorem keys_trimmed (stored : Entries Text Json) :
    Entries.keys ((stored.filter fun e => trim e.1 ≠ []).map fun e => (trim e.1, trim e.2.plain)) =
      (stored.keys.map trim).filter (· ≠ []) := by
  simp [Entries.keys, List.filter_map, Function.comp_def]

/-- The places of what is loaded depend on the keys that are stored, and on no value. -/
theorem keys_normalized_congr {stored stored' : Entries Text Json}
    (h : stored.keys = stored'.keys) : (normalized stored).keys = (normalized stored').keys := by
  refine Entries.keys_merge_congr rfl ?_
  rw [keys_trimmed, keys_trimmed, h]

theorem normalized_concat (stored : Entries Text Json) {key : Text} (hne : trim key ≠ [])
    (v : Json) :
    normalized (stored ++ [(key, v)]) = (normalized stored).put (trim key) (trim v.plain) := by
  rw [normalized, List.filter_append, List.map_append, Entries.ofList, Entries.merge_append]
  simp [hne, normalized, Entries.ofList, Entries.merge_cons]

/-- **One write** to a key that is loaded moves nothing. -/
theorem keys_normalized_put {stored : Entries Text Json} {key : Text} (hkey : trim key = key)
    (hne : key ≠ []) (hm : key ∈ (normalized stored).keys) (v : Json) :
    (normalized (stored.put key v)).keys = (normalized stored).keys := by
  by_cases hs : key ∈ stored.keys
  · refine keys_normalized_congr ?_
    rw [Entries.keys_put, if_pos hs]
  · rw [Entries.put_of_not_mem hs, normalized_concat stored (by rwa [hkey]), hkey,
      Entries.keys_put, if_pos hm]

theorem keys_normalized_merge {stored later : Entries Text Json}
    (h : ∀ key ∈ later.keys, trim key = key ∧ key ≠ [] ∧ key ∈ (normalized stored).keys) :
    (normalized (stored.merge later)).keys = (normalized stored).keys := by
  induction later generalizing stored with
  | nil => rfl
  | cons e later ih =>
    obtain ⟨key, v⟩ := e
    obtain ⟨⟨hkey, hne, hm⟩, hrest⟩ := List.forall_mem_cons.1 h
    have hput := keys_normalized_put hkey hne hm v
    rw [Entries.merge_cons, ih, hput]
    intro k hk
    rw [hput]
    exact hrest k hk

/-! ## Storing what was loaded -/

theorem cleanEntry_of_load {fs : Files} {path : Path} {s : Settings} (hs : load fs path = .ok s) :
    ∀ e ∈ s.defaults, CleanEntry e := by
  obtain ⟨ms, ds, hms, hds, -, hdefaults⟩ := load_eq_ok_iff.1 hs
  obtain ⟨depth, hdepth⟩ := Json.exists_depthLimit_eq
  have hmembers : Json.Restorable (depth + 2) (.object ms) := hdepth ▸ restorable_members hms
  obtain ⟨-, hkeys, hvalues⟩ := Json.restorable_object_iff.1 (restorable_storedDefaults hmembers hds)
  rw [hdefaults]
  refine forall_mem_normalized ?_
  intro e he hblank
  exact {
    key_ne_nil := hblank
    trim_key := trim_trim _
    trim_value := trim_trim _
    key_joined := (hkeys e.1 (List.mem_map.2 ⟨e, he, rfl⟩)).trim
    value_joined := (Json.joined_plain (hvalues e he)).trim }

theorem exists_store_of_load {fs : Files} {path : Path} {s : Settings}
    (hs : load fs path = .ok s) (hne : s.defaults ≠ []) {d : Entries Text Text} (hd : d ≠ []) :
    ∃ fs', store fs path d = ⟨fs', none⟩ := by
  obtain ⟨ms, ds, hms, hds, -, hdefaults⟩ := load_eq_ok_iff.1 hs
  have hmembers : ms ≠ [] := by
    rintro rfl
    obtain rfl := Except.ok.inj hds
    exact hne hdefaults
  obtain ⟨bytes, hread⟩ := exists_read_of_members hms hmembers
  obtain ⟨fs', hsave, -⟩ := exists_save_of_read hread _
  exact ⟨fs', (store_eq_save hd hms hds).trans hsave⟩

/-- **Merging what is loaded** into what is stored changes nothing that is loaded. -/
theorem normalized_merge_normalized {stored : Entries Text Json}
    (hclean : ∀ e ∈ normalized stored, CleanEntry e) :
    normalized (stored.merge ((normalized stored).mapValues .string)) = normalized stored := by
  have hnodup : (normalized stored).keys.Nodup := Entries.nodup_ofList _
  -- Each key is there already in some spelling, so trimmed no key is new.
  have hkeys : (normalized (stored.merge ((normalized stored).mapValues .string))).keys =
      (normalized stored).keys := by
    refine keys_normalized_merge ?_
    intro key hkey
    rw [Entries.keys_mapValues] at hkey
    obtain ⟨e, he, rfl⟩ := List.mem_map.1 hkey
    exact ⟨(hclean e he).trim_key, (hclean e he).key_ne_nil, hkey⟩
  refine (Entries.eq_of_keys hkeys.symm hnodup ?_).symm
  intro k
  -- A shadowed key keeps its value, and any other gets the value it has.
  rw [find?_normalized_merge hnodup hclean, Option.or_self, ite_self]

/-- **Storing what was loaded** changes nothing for those who load. What was loaded has keys that
are not empty, and no blanks at the ends of its keys and values. -/
theorem load_store_loaded {fs : Files} {path : Path} {s : Settings} (hs : load fs path = .ok s)
    (hne : s.defaults ≠ []) :
    (∀ e ∈ s.defaults, e.1 ≠ [] ∧ trim e.1 = e.1 ∧ trim e.2 = e.2) ∧
      ∃ fs', store fs path s.defaults = ⟨fs', none⟩ ∧ load fs' path = .ok s := by
  have hclean := cleanEntry_of_load hs
  obtain ⟨fs', hstore⟩ := exists_store_of_load hs hne hne
  obtain ⟨ms, ds, -, -, hdefaults, hload⟩ :=
    load_of_store hs (fun e he => (hclean e he).joined) hstore
  refine ⟨fun e he => (hclean e he).trimmed, fs', hstore, ?_⟩
  rw [hdefaults] at hclean
  rw [hload, hdefaults, normalized_merge_normalized hclean, ← hdefaults]

/-- Three spellings of a key, of which two have blanks, a blank key, and a value that is an array.
The key that has no spelling without blanks is put last, and is loaded in the first place all the
same. -/
theorem load_store_loaded_spellings :
    let path := Path.ofText "default.json".text
    let s : Settings := ⟨[("label".text, "['x', None]".text), ("org".text, "c".text)], true⟩
    let fs : Files := ⟨[], [(path.place, Utf8.encode
      ("\x7b\"timezoned\": true, \"defaults\": \x7b\" label\": [\"x\", null], \"org\": \"a\", " ++
        "\" \": 1, \" org\": \"b\", \"org \": \" c \"\x7d\x7d").text)]⟩
    load fs path = .ok s ∧ s.defaults ≠ [] ∧
      (∃ fs', store fs path s.defaults = ⟨fs', none⟩ ∧ load fs' path = .ok s) ∧
      (store fs path s.defaults).files ≠ fs := by
  intro path s fs
  have hread : (load fs path).toOption.any (· = s) = true := by decide +kernel
  obtain ⟨s', hs, hcheck⟩ := exists_ok_of_any hread
  obtain rfl := of_decide_eq_true hcheck
  exact ⟨hs, List.cons_ne_nil _ _, (load_store_loaded hs (List.cons_ne_nil _ _)).2,
    by decide +kernel⟩

end Settings

end SearchQuery
