import SearchQuery.Proofs.Settings.Runs
import SearchQuery.Run

/-!
# Which files change

**Theorem (`run_keeps_files`).** A run that does not succeed leaves every file as it was, and one
that succeeds changes at most the settings file. Commands that only read change nothing, and
neither does a call on the settings that fails.

Everything is checked before the first write. A change of the settings is therefore `Confined`: if
it fails it keeps every file, and whatever becomes of it, it keeps all files but one. Writing and
removing are confined, the calls on the settings pass that on, and a command succeeds or keeps what
the files hold (`runCommand_cases`).
-/

namespace SearchQuery

/-! ## Confined changes -/

/-- A change that keeps every file if it fails, and in any case all files but the one of a path. -/
structure Confined {ε : Type} (fs : Files) (path : Path) (change : Change ε) : Prop where
  failed : change.failure ≠ none → change.files.contents = fs.contents
  other : ∀ p, p ≠ path.place → change.files.contents.find? p = fs.contents.find? p

namespace Confined

variable {ε : Type} {fs : Files} {path : Path}

theorem unchanged (failure : Option ε) : Confined fs path ⟨fs, failure⟩ :=
  ⟨fun _ => rfl, fun _ _ => rfl⟩

theorem map {ε' : Type} {change : Change ε} (h : Confined fs path change) (f : ε → ε') :
    Confined fs path ⟨change.files, change.failure.map f⟩ :=
  ⟨fun hf => h.failed fun hn => hf (by simp [hn]), h.other⟩

theorem write (fs : Files) (path : Path) (bytes : Bytes) :
    Confined fs path (fs.write path bytes) := by
  have hc := Files.contents_write fs path bytes
  constructor
  · intro hf
    rw [hc, if_pos (Option.isSome_iff_ne_none.2 hf)]
  · intro p hp
    by_cases hf : (fs.write path bytes).failure.isSome = true
    · rw [hc, if_pos hf]
    · rw [hc, if_neg hf, Entries.find?_put, if_neg hp.symm]

theorem remove (fs : Files) (path : Path) : Confined fs path (fs.remove path) := by
  cases hf : fs.find path with
  | error o =>
    simp only [Files.remove, hf]
    exact unchanged _
  | ok found =>
    cases found with
    | folder =>
      simp only [Files.remove, hf]
      exact unchanged _
    | nothing =>
      simp only [Files.remove, hf]
      exact unchanged _
    | file bytes =>
      simp only [Files.remove, hf]
      exact ⟨fun hn => absurd rfl hn, fun p hp => Entries.find?_erase_of_ne _ hp⟩

end Confined

/-! ## Calls on the settings -/

namespace Settings

theorem confined_save (fs : Files) (path : Path) (ms : Entries Text Json) :
    Confined fs path (save fs path ms) := by
  unfold save
  by_cases hnil : ms = []
  · simp only [if_pos hnil]
    exact (Confined.remove fs path).map _
  · simp only [if_neg hnil]
    exact (Confined.write fs path _).map _

theorem confined_store (fs : Files) (path : Path) (d : Entries Text Text) :
    Confined fs path (store fs path d) := by
  unfold store
  split
  · exact .unchanged _
  · split
    · exact .unchanged _
    · split
      · exact .unchanged _
      · exact confined_save _ _ _

theorem confined_clear (fs : Files) (path : Path) : Confined fs path (clear fs path) := by
  unfold clear
  split
  · exact .unchanged _
  · split
    · exact .unchanged _
    · exact .unchanged _
    · exact confined_save _ _ _

theorem failure_of_ofChange {change : Change SettingsError} {e : SettingsError}
    (h : Reply.ofChange change = .failed e) : change.failure ≠ none := by
  intro hn
  rw [Reply.ofChange, hn] at h
  cases h

/-- **A call that fails** leaves every file as it was. -/
theorem contents_call_of_failed {fs : Files} {path : Path} {c : Call} {e : SettingsError}
    (h : (call fs path c).2 = .failed e) : (call fs path c).1.contents = fs.contents := by
  cases c with
  | store d => exact (confined_store fs path d).failed (failure_of_ofChange h)
  | clear => exact (confined_clear fs path).failed (failure_of_ofChange h)
  | load =>
    rw [call]
    split <;> rfl

end Settings

/-! ## Commands -/

/-- A pair with an unknown key is found before anything is stored, wherever it stands. -/
theorem readDefaults_of_unknown {pairs : List Qualifier}
    (h : ∃ q ∈ pairs, Key.ofName? q.key = none) : ∃ e, readDefaults pairs = .error e := by
  induction pairs with
  | nil =>
    obtain ⟨q, hq, -⟩ := h
    exact absurd hq List.not_mem_nil
  | cons p rest ih =>
    cases hp : Key.ofName? p.key with
    | none => exact ⟨.unknownKey p.key, by simp [readDefaults, Key.ofName, hp]⟩
    | some k =>
      obtain ⟨q, hq, hu⟩ := h
      -- This key is known, so the unknown one is behind it.
      rcases List.mem_cons.1 hq with rfl | hq
      · rw [hp] at hu
        cases hu
      · obtain ⟨e, he⟩ := ih ⟨q, hq, hu⟩
        exact ⟨e, by simp [readDefaults, Key.ofName, hp, he]⟩

/-- **A command** succeeds, or leaves every file as it was. -/
theorem runCommand_cases (standard : Path) (fs : Files) (r : Request) :
    (∃ d, (runCommand standard fs r).2 = .ok d ∧ d.code = 0) ∨
      (runCommand standard fs r).1.contents = fs.contents := by
  -- A change that fails is confined, so it leaves what the files hold.
  have hreported : ∀ {change : Change SettingsError} {path : Path} (report : Text),
      Confined fs path change → (∃ d, (reported change report).2 = .ok d ∧ d.code = 0) ∨
        (reported change report).1.contents = fs.contents := by
    intro change path report hc
    rw [reported]
    cases hf : change.failure with
    | none => exact .inl ⟨_, rfl, rfl⟩
    | some e => exact .inr (hc.failed (by simp [hf]))
  obtain ⟨config, verbose, command⟩ := r
  cases command with
  | build b => exact .inr rfl
  | set pairs =>
    simp only [runCommand, runSet]
    cases readDefaults pairs with
    | error e => exact .inr rfl
    | ok es => exact hreported _ (Settings.confined_store fs _ _)
  | clear => exact hreported _ (Settings.confined_clear fs _)
  | «show» => exact .inr rfl

theorem find?_contents_runCommand (standard : Path) (fs : Files) (r : Request) {p : Place}
    (hp : p ≠ (r.config.getD standard).place) :
    (runCommand standard fs r).1.contents.find? p = fs.contents.find? p := by
  have hreported : ∀ {change : Change SettingsError} (report : Text),
      (reported change report).1 = change.files := by
    intro change report
    rw [reported]
    split <;> rfl
  obtain ⟨config, verbose, command⟩ := r
  cases command with
  | build b => rfl
  | set pairs =>
    simp only [runCommand, runSet]
    cases readDefaults pairs with
    | error e => rfl
    | ok es => rw [hreported, (Settings.confined_store fs _ _).other p hp]
  | clear =>
    simp only [runCommand, runClear]
    rw [hreported, (Settings.confined_clear fs _).other p hp]
  | «show» => rfl

/-! ## Runs -/

variable {standard : Path}

theorem files_run_of_parse {fs : Files} {args : List Text} {r : Request}
    (h : CommandLine.parse args = .ok r) :
    (run standard fs args).files = (runCommand standard fs r).1 := by
  simp only [run, h]
  split
  next hrun => rw [hrun]
  next hrun =>
    rw [hrun]
    split <;> rfl

theorem files_run_of_stop {fs : Files} {args : List Text} {stop : Stop}
    (h : CommandLine.parse args = .error stop) : (run standard fs args).files = fs := by
  simp only [run, h]
  cases stop <;> rfl

theorem contents_run {fs : Files} {args : List Text} (h : (run standard fs args).ending ≠ .exit 0) :
    (run standard fs args).files.contents = fs.contents := by
  cases hparse : CommandLine.parse args with
  | error stop => rw [files_run_of_stop hparse]
  | ok r =>
    rw [files_run_of_parse hparse]
    rcases runCommand_cases standard fs r with ⟨d, hd, hcode⟩ | hsame
    · refine absurd ?_ h
      have hpair : runCommand standard fs r = ((runCommand standard fs r).1, .ok d) := by rw [← hd]
      rw [run, hparse]
      simp only
      rw [hpair]
      simp only [hcode]
    · exact hsame

/-- **Only success changes files.** A run that does not succeed leaves every file as it was, and so
does one that is refused or asks for help. Commands that only read leave everything as it was; the
others change no file but the settings file, and nothing at all where one of several pairs has
an unknown key. A call on the settings that fails leaves every file as it was. -/
theorem run_keeps_files (standard : Path) (fs : Files) (args : List Text) :
    ((run standard fs args).ending ≠ .exit 0 →
      (run standard fs args).files.contents = fs.contents) ∧
    (∀ stop, CommandLine.parse args = .error stop → (run standard fs args).files = fs) ∧
    (∀ r, CommandLine.parse args = .ok r →
      (∀ b, r.command = .build b → (run standard fs args).files = fs) ∧
      (r.command = .show → (run standard fs args).files = fs) ∧
      (∀ p, p ≠ (r.config.getD standard).place →
        (run standard fs args).files.contents.find? p = fs.contents.find? p) ∧
      (∀ pairs, r.command = .set pairs → (∃ q ∈ pairs, Key.ofName? q.key = none) →
        (run standard fs args).ending = .exit 1 ∧ (run standard fs args).files = fs)) ∧
    (∀ path c e, (Settings.call fs path c).2 = .failed e →
      (Settings.call fs path c).1.contents = fs.contents) := by
  refine ⟨contents_run, fun stop => files_run_of_stop, ?_, fun path c e =>
    Settings.contents_call_of_failed⟩
  intro r hparse
  have hfiles : (run standard fs args).files = (runCommand standard fs r).1 :=
    files_run_of_parse hparse
  refine ⟨?_, ?_, ?_, ?_⟩
  · intro b hb
    rw [hfiles, runCommand, hb]
  · intro hshow
    rw [hfiles, runCommand, hshow]
  · intro p hp
    rw [hfiles, find?_contents_runCommand standard fs r hp]
  · intro pairs hpairs hunknown
    obtain ⟨e, he⟩ := readDefaults_of_unknown hunknown
    have hrun : runCommand standard fs r = (fs, .error (.qualifier e)) := by
      simp only [runCommand, hpairs, runSet, he]
    constructor
    · rw [run, hparse]
      simp only
      rw [hrun]
      rfl
    · rw [hfiles, hrun]

/-- Three pairs, of which the last has an unknown key, over a file that holds no settings. -/
theorem run_keeps_files_unknown_key :
    let standard := Path.ofText "default.json".text
    let fs : Files := ⟨[], [(standard.place, [0x7b, 0x7d])]⟩
    let args := ["defaults".text, "set".text, "org=a".text, "label=b".text, "size=c".text]
    let pairs : List Qualifier := [⟨"org".text, "a".text, false⟩, ⟨"label".text, "b".text, false⟩,
      ⟨"size".text, "c".text, false⟩]
    CommandLine.parse args = .ok ⟨none, false, .set pairs⟩ ∧
      (∃ q ∈ pairs, Key.ofName? q.key = none) ∧
      (run standard fs args).ending = .exit 1 ∧ (run standard fs args).files = fs := by
  intro standard fs args pairs
  have hparse : CommandLine.parse args = .ok ⟨none, false, .set pairs⟩ := rfl
  have hunknown : ∃ q ∈ pairs, Key.ofName? q.key = none := by decide
  exact ⟨hparse, hunknown,
    ((run_keeps_files standard fs args).2.2.1 _ hparse).2.2.2 pairs rfl hunknown⟩

end SearchQuery
