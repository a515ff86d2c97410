import SearchQuery.Proofs.Settings.Spellings

/-!
# The settings as a table

**Theorem (`run_answers_like_table`).** At a path where no file is and one can be made, any calls
that store, clear and load settings answer like a table in memory that starts empty: no call
fails, every load gives the table as the calls before it left it, and there is a file exactly
while the table is not empty.

The proof is a simulation. `Holds fs path m` relates files to a table: there is no file for the
empty table, and otherwise the file is the document whose one member is the table. A call keeps the
relation and gives the table's answer (`Holds.call`), and so does a run of calls (`Holds.run`).

That a file can be made has to be asked for. The folder `k/..` has no file, and none can be put in
its place: storing there makes `k` and fails (`store_above_new_folder`).
-/

namespace SearchQuery

namespace Settings

/-! ## Calls and tables -/

/-- A call on the settings of a path. -/
inductive Call where
  | store (defaults : Entries Text Text)
  | clear
  | load

inductive Reply where
  | done
  | loaded (settings : Settings)
  | failed (error : SettingsError)

def Reply.ofChange (change : Change SettingsError) : Reply :=
  match change.failure with
  | none => .done
  | some e => .failed e

/-- The files after a call, and its reply. -/
def call (fs : Files) (path : Path) : Call → Files × Reply
  | .store d => ((store fs path d).files, .ofChange (store fs path d))
  | .clear => ((clear fs path).files, .ofChange (clear fs path))
  | .load =>
    match load fs path with
    | .ok s => (fs, .loaded s)
    | .error e => (fs, .failed e)

/-- The files after some calls, and their replies. -/
def run (fs : Files) (path : Path) : List Call → Files × List Reply
  | [] => (fs, [])
  | c :: rest =>
    let (fs, reply) := call fs path c
    let (fs, replies) := run fs path rest
    (fs, reply :: replies)

/-- What a call makes of a table. -/
def Call.apply (m : Entries Text Text) : Call → Entries Text Text
  | .store d => m.merge d
  | .clear => []
  | .load => m

/-- What a table replies to a call. -/
def Call.answer (m : Entries Text Text) : Call → Reply
  | .store _ => .done
  | .clear => .done
  | .load => .loaded ⟨m, false⟩

/-- What a table replies to some calls, each of which finds it as those before left it. -/
def answers (m : Entries Text Text) : List Call → List Reply
  | [] => []
  | c :: rest => c.answer m :: answers (c.apply m) rest

/-- A key and a value without blanks around them and without halves, the key not empty. -/
structure TidyEntry (e : Text × Text) : Prop where
  key_ne_nil : e.1 ≠ []
  trim_key : trim e.1 = e.1
  trim_value : trim e.2 = e.2
  key_halfFree : HalfFree e.1
  value_halfFree : HalfFree e.2

instance (e : Text × Text) : Decidable (TidyEntry e) :=
  decidable_of_iff
    (e.1 ≠ [] ∧ trim e.1 = e.1 ∧ trim e.2 = e.2 ∧ HalfFree e.1 ∧ HalfFree e.2)
    ⟨fun ⟨h₁, h₂, h₃, h₄, h₅⟩ => ⟨h₁, h₂, h₃, h₄, h₅⟩, fun ⟨h₁, h₂, h₃, h₄, h₅⟩ =>
      ⟨h₁, h₂, h₃, h₄, h₅⟩⟩

/-- A call that stores, if it does, at least one entry and only tidy ones. -/
def Call.Tidy : Call → Prop
  | .store d => d ≠ [] ∧ ∀ e ∈ d, TidyEntry e
  | .clear => True
  | .load => True

instance : ∀ c : Call, Decidable c.Tidy
  | .store d => inferInstanceAs (Decidable (d ≠ [] ∧ ∀ e ∈ d, TidyEntry e))
  | .clear => .isTrue trivial
  | .load => .isTrue trivial

/-! ## Files that hold a table -/

/-- The members of a file that holds nothing but a table of defaults. -/
def record (m : Entries Text Text) : Entries Text Json :=
  [(defaultsKey, .object (m.mapValues .string))]

theorem record_ne_nil (m : Entries Text Text) : record m ≠ [] := List.cons_ne_nil _ _

/-- The file of a path holds a table: it is absent for the empty one. -/
inductive Holds (fs : Files) (path : Path) : Entries Text Text → Prop
  | absent (hr : fs.read path = .ok none) (hw : fs.Writable path) : Holds fs path []
  | present {m : Entries Text Text} (hm : m ≠ []) (hk : m.keys.Nodup) (ht : ∀ e ∈ m, TidyEntry e)
      (hr : fs.read path = .ok (some (Utf8.encode (Json.document (record m))))) : Holds fs path m

theorem restorable_record {m : Entries Text Text} (hk : m.keys.Nodup) (ht : ∀ e ∈ m, TidyEntry e) :
    Json.Restorable Json.depthLimit (.object (record m)) := by
  obtain ⟨depth, hdepth⟩ := Json.exists_depthLimit_eq
  have htable : Json.Restorable (depth + 1) (.object (m.mapValues .string)) := by
    refine .object (by rwa [Entries.keys_mapValues]) ?_ ?_
    · intro k hkm
      rw [Entries.keys_mapValues] at hkm
      obtain ⟨e, he, rfl⟩ := List.mem_map.1 hkm
      exact (ht e he).key_halfFree.joined
    · intro e' he'
      obtain ⟨e, he, rfl⟩ := List.mem_map.1 he'
      exact .string (ht e he).value_halfFree.joined
  have hkey : Joined defaultsKey := by decide
  rw [hdepth]
  refine .object (List.pairwise_singleton _ _) ?_ ?_
  · intro k hkm
    obtain rfl := List.mem_singleton.1 hkm
    exact hkey
  · intro e he
    obtain rfl := List.mem_singleton.1 he
    exact htable

theorem members_record {fs : Files} {path : Path} {m : Entries Text Text} (hk : m.keys.Nodup)
    (ht : ∀ e ∈ m, TidyEntry e)
    (hr : fs.read path = .ok (some (Utf8.encode (Json.document (record m))))) :
    members fs path = .ok (record m) := by
  obtain ⟨t, hd, hj⟩ := Json.read_decode_document (restorable_record hk ht)
  rw [members, hr]
  simp only [membersOfBytes, hd, hj]

/-! ## Calls keep the relation -/

theorem Holds.nodup {fs : Files} {path : Path} {m : Entries Text Text} (h : Holds fs path m) :
    m.keys.Nodup := by
  cases h with
  | absent => exact List.nodup_nil
  | present _ hk => exact hk

theorem Holds.tidy {fs : Files} {path : Path} {m : Entries Text Text} (h : Holds fs path m) :
    ∀ e ∈ m, TidyEntry e := by
  cases h with
  | absent => exact fun e he => absurd he List.not_mem_nil
  | present _ _ ht => exact ht

theorem Holds.writable {fs : Files} {path : Path} {m : Entries Text Text} (h : Holds fs path m) :
    fs.Writable path := by
  cases h with
  | absent _ hw => exact hw
  | present _ _ _ hr => exact Files.writable_of_read hr

theorem Holds.members {fs : Files} {path : Path} {m : Entries Text Text} (h : Holds fs path m) :
    members fs path = .ok (if m = [] then [] else record m) := by
  cases h with
  | absent hr => rw [Settings.members, hr]; rfl
  | present hm hk ht hr => rw [if_neg hm, members_record hk ht hr]

/-- The table is read as it is stored. -/
theorem Holds.storedDefaults {fs : Files} {path : Path} {m : Entries Text Text}
    (h : Holds fs path m) : ∃ ms, Settings.members fs path = .ok ms ∧
      Settings.storedDefaults path ms = .ok (m.mapValues .string) ∧
      storedTimezoned path ms = .ok false ∧
      ∀ v, ms.put defaultsKey v = [(defaultsKey, v)] := by
  refine ⟨_, h.members, ?_⟩
  by_cases hm : m = []
  · subst hm
    exact ⟨rfl, rfl, fun _ => rfl⟩
  · rw [if_neg hm]
    exact ⟨rfl, rfl, fun _ => rfl⟩

theorem Holds.load {fs : Files} {path : Path} {m : Entries Text Text} (h : Holds fs path m) :
    Settings.load fs path = .ok ⟨m, false⟩ := by
  obtain ⟨ms, hms, hd, hz, -⟩ := h.storedDefaults
  have htrim : ∀ e ∈ m, e.1 ≠ [] ∧ trim e.1 = e.1 ∧ trim e.2 = e.2 := fun e he =>
    ⟨(h.tidy e he).key_ne_nil, (h.tidy e he).trim_key, (h.tidy e he).trim_value⟩
  rw [Settings.load, hms]
  simp only [hd, hz, normalized_mapValues h.nodup htrim]

theorem Holds.store {fs : Files} {path : Path} {m : Entries Text Text} (h : Holds fs path m)
    {d : Entries Text Text} (hd : d ≠ []) (ht : ∀ e ∈ d, TidyEntry e) :
    ∃ fs', Settings.store fs path d = ⟨fs', none⟩ ∧ Holds fs' path (m.merge d) := by
  obtain ⟨ms, hms, hds, -, hput⟩ := h.storedDefaults
  obtain ⟨fs', hw, hr⟩ := h.writable.write (Utf8.encode (Json.document (record (m.merge d))))
  -- What is written is the record of the merged mapping.
  have hwith : withDefaults path ms d = .ok (record (m.merge d)) := by
    rw [withDefaults, hds]
    simp only [hput, record, Entries.mapValues_merge]
    rfl
  refine ⟨fs', ?_, .present (Entries.merge_ne_nil hd) (Entries.nodup_merge h.nodup d)
    (Entries.forall_mem_merge h.tidy ht) hr⟩
  rw [Settings.store, if_neg hd, hms]
  simp only [hwith]
  rw [save, if_neg (record_ne_nil _), hw]
  rfl

theorem Holds.clear {fs : Files} {path : Path} {m : Entries Text Text} (h : Holds fs path m) :
    ∃ fs', Settings.clear fs path = ⟨fs', none⟩ ∧ Holds fs' path [] := by
  cases h with
  | absent hr hw =>
    refine ⟨fs, ?_, .absent hr hw⟩
    rw [Settings.clear, (Holds.absent hr hw).members]
    rfl
  | present hm hk ht hr =>
    obtain ⟨fs', hremove, hr', hw'⟩ := Files.remove_of_read hr
    refine ⟨fs', ?_, .absent hr' hw'⟩
    rw [Settings.clear, members_record hk ht hr]
    simp only [record, Entries.find?, if_true]
    -- The record has no other member, so the file goes.
    rw [save, if_pos (by simp [Entries.erase]), hremove]
    rfl

/-- **One call**: files that hold a table reply like it and hold what becomes of it. -/
theorem Holds.call {fs : Files} {path : Path} {m : Entries Text Text} (h : Holds fs path m)
    {c : Call} (hc : c.Tidy) :
    ∃ fs', Settings.call fs path c = (fs', c.answer m) ∧ Holds fs' path (c.apply m) := by
  cases c with
  | store d =>
    obtain ⟨fs', hs, hh⟩ := h.store hc.1 hc.2
    exact ⟨fs', by rw [Settings.call, hs]; rfl, hh⟩
  | clear =>
    obtain ⟨fs', hs, hh⟩ := h.clear
    exact ⟨fs', by rw [Settings.call, hs]; rfl, hh⟩
  | load => exact ⟨fs, by rw [Settings.call, h.load]; rfl, h⟩

/-- **A run of calls**, by one call after the other. -/
theorem Holds.run {fs : Files} {path : Path} {m : Entries Text Text} (h : Holds fs path m)
    {calls : List Call} (hc : ∀ c ∈ calls, c.Tidy) :
    ∃ fs', Settings.run fs path calls = (fs', answers m calls) ∧
      Holds fs' path (calls.foldl Call.apply m) := by
  induction calls generalizing fs m with
  | nil => exact ⟨fs, rfl, h⟩
  | cons c rest ih =>
    obtain ⟨fs₁, hcall, h₁⟩ := h.call (hc c List.mem_cons_self)
    obtain ⟨fs₂, hrun, h₂⟩ := ih h₁ fun d hd => hc d (List.mem_cons_of_mem _ hd)
    refine ⟨fs₂, ?_, h₂⟩
    rw [Settings.run, hcall]
    simp only [hrun]
    rfl

/-! ## The table and the file -/

theorem Holds.read_eq_none_iff {fs : Files} {path : Path} {m : Entries Text Text}
    (h : Holds fs path m) : fs.read path = .ok none ↔ m = [] := by
  cases h with
  | absent hr => simp [hr]
  | present hm _ _ hr => simp [hr, hm]

theorem Holds.exists_file_iff {fs : Files} {path : Path} {m : Entries Text Text}
    (h : Holds fs path m) : (∃ bytes, fs.read path = .ok (some bytes)) ↔ m ≠ [] := by
  cases h with
  | absent hr => simp [hr]
  | present hm _ _ hr => simp [hr, hm]

theorem failed_not_mem_answers (m : Entries Text Text) (calls : List Call) (e : SettingsError) :
    .failed e ∉ answers m calls := by
  induction calls generalizing m with
  | nil => exact List.not_mem_nil
  | cons c rest ih =>
    rw [answers, List.mem_cons, not_or]
    refine ⟨?_, ih _⟩
    intro h
    cases c <;> cases h

/-- Where no file is, one can be made exactly when storing there succeeds. -/
theorem store_succeeds_iff_writable {fs : Files} {path : Path} (hr : fs.read path = .ok none)
    {d : Entries Text Text} (hd : d ≠ []) :
    (store fs path d).failure = none ↔ fs.Writable path := by
  have hms : members fs path = .ok [] := by
    rw [members, hr]
  exact store_succeeds_iff hd hms rfl

/-- **The settings are a table.** Where no file is and one can be made, calls reply like a table
that starts empty, none of them fails, and there is a file exactly when the table is not empty. -/
theorem run_answers_like_table {fs : Files} {path : Path}
    (hr : ∀ bytes, fs.read path ≠ .ok (some bytes)) (hw : fs.Writable path) {calls : List Call}
    (hc : ∀ c ∈ calls, c.Tidy) :
    (run fs path calls).2 = answers [] calls ∧
      (∀ e, .failed e ∉ (run fs path calls).2) ∧
      ((∃ bytes, (run fs path calls).1.read path = .ok (some bytes)) ↔
        calls.foldl Call.apply [] ≠ []) ∧
      ((run fs path calls).1.read path = .ok none ↔ calls.foldl Call.apply [] = []) := by
  have habsent : fs.read path = .ok none := by
    obtain ⟨bytes?, h⟩ := hw.read
    cases bytes? with
    | none => exact h
    | some bytes => exact absurd h (hr bytes)
  obtain ⟨fs', hrun, h⟩ := (Holds.absent habsent hw).run hc
  rw [hrun]
  exact ⟨rfl, failed_not_mem_answers [] calls, h.exists_file_iff, h.read_eq_none_iff⟩

theorem read_empty_of_none {path : Path} (h : Files.empty.read path = .ok none) (bytes : Bytes) :
    Files.empty.read path ≠ .ok (some bytes) := by
  rw [h]
  exact nofun

/-- A run that makes a folder on its way, on texts that are written with escapes. -/
theorem run_answers_like_table_nested :
    let path := Path.ofText "nested/config.json".text
    let calls : List Call :=
      [.load, .store [("org".text, "acme \"x\" \\".text)],
        .store [("text".text, "caf\u00e9 😀".text), ("org".text, "b".text)], .load, .clear]
    (∀ bytes, Files.empty.read path ≠ .ok (some bytes)) ∧ Files.empty.Writable path ∧
      (∀ c ∈ calls, c.Tidy) ∧ (run Files.empty path calls).2 = answers [] calls := by
  intro path calls
  have hr := read_empty_of_none (show Files.empty.read path = .ok none from rfl)
  have hw : Files.empty.Writable path := fun _ => rfl
  have hc : ∀ c ∈ calls, c.Tidy := by decide
  exact ⟨hr, hw, hc, (run_answers_like_table hr hw hc).1⟩

/-- The folder `k/..` is no file, nor can it become one: storing makes `k` and then fails. -/
theorem store_above_new_folder :
    let path := Path.ofText "k/..".text
    let call : Call := .store [("a".text, "b".text)]
    (∀ bytes, Files.empty.read path ≠ .ok (some bytes)) ∧ call.Tidy ∧
      (run Files.empty path [call]).2 = [.failed (.unusable ⟨.isFolder, path⟩)] := by
  intro path call
  have hr := read_empty_of_none (show Files.empty.read path = .ok none from rfl)
  exact ⟨hr, by decide, rfl⟩

end Settings

end SearchQuery
