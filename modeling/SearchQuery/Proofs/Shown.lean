import SearchQuery.Proofs.Defaults
import SearchQuery.Proofs.Messages
import SearchQuery.Proofs.Settings.Reloading
import SearchQuery.Proofs.Unchanged

/-!
# What is shown can be set again

**Theorem (`run_set_shown`).** Let the defaults of a settings file have known keys and values of one
line. Give the lines that `defaults show` prints, but for the last one, to `defaults set` with a
settings file that does not exist. If a file can be made there, then the run ends well, the new file
is loaded with the same defaults in the same order, and `defaults show` prints the same pairs of it.

A pair passes four layers on its way, and each gives back what the one before it made. Every default
is a line of its own (`linesOf_settingsText`). A line is a word, since no known key starts with a
dash, and is cut at the sign of equality behind the key (`parse_setLine`). What was loaded has no
blanks that could be dropped, and can be stored (`cleanEntry_of_load`). What is stored in a new file
is what is loaded from it (`load_of_store_new`).

That a file can be made has to be asked for, as it has for every store in a new file. A run with the
settings file `k/..` makes the folder `k` and fails (`run_set_shown_above_new_folder`).
-/

namespace SearchQuery

/-- A key and a value as one text. -/
def spelt (d : Text × Text) : Text := d.1 ++ .char '=' :: d.2

namespace CommandLine

/-! ## The arguments of `defaults` -/

theorem ofArguments_words {α : Type} (table : List (Switch α)) {words : List Text}
    (h : ∀ w ∈ words, w.head? ≠ some (.char '-')) :
    Token.ofArguments table words = .ok (words.map .word) := by
  induction words with
  | nil => rfl
  | cons w rest ih =>
    obtain ⟨hw, hrest⟩ := List.forall_mem_cons.1 h
    rw [ofArguments_word hw, ih hrest]
    rfl

theorem scan_words {α : Type} (table : List (Switch α)) (words : List Text) :
    Event.scan table .awaited (words.map .word) = words.map .operand := by
  have hrunning : ∀ words : List Text,
      Event.scan table .running (words.map .word) = words.map .operand := by
    intro words
    induction words with
    | nil => simp [Event.scan]
    | cons w rest ih => simp [Event.scan, ih]
  cases words with
  | nil => simp [Event.scan]
  | cons w rest => simp [Event.scan, hrunning]

theorem head?_spelt {d : Text × Text} (h : (Group.pair false d.1 d.2).WellFormed) :
    (spelt d).head? ≠ some (.char '-') := h.head?_value rfl

theorem readPairs_operands (page : Page) (pairs : List Qualifier) {ds : List (Text × Text)}
    (h : ∀ d ∈ ds, (Group.pair false d.1 d.2).WellFormed) :
    readPairs page pairs [] (ds.map fun d => .operand (spelt d)) =
      .ok (pairs ++ ds.map fun d => ⟨trim d.1, trim d.2, false⟩, []) := by
  induction ds generalizing pairs with
  | nil => simp [readPairs]
  | cons d rest ih =>
    obtain ⟨hd, hrest⟩ := List.forall_mem_cons.1 h
    have hpair : readPair page "key=value".text false (spelt d) =
        .ok ⟨trim d.1, trim d.2, false⟩ := by
      rw [readPair, spelt, Group.read_pair hd]
    rw [List.map_cons, readPairs, hpair]
    simp only [ih _ hrest, List.append_assoc, List.map_cons, List.singleton_append]

theorem set_spelt {ds : List (Text × Text)} (hne : ds ≠ [])
    (h : ∀ d ∈ ds, (Group.pair false d.1 d.2).WellFormed) :
    set (ds.map spelt) = .ok (.set (ds.map fun d => ⟨trim d.1, trim d.2, false⟩), []) := by
  have hwords : ∀ w ∈ ds.map spelt, w.head? ≠ some (.char '-') := by
    intro w hw
    obtain ⟨d, hd, rfl⟩ := List.mem_map.1 hw
    exact head?_spelt (h d hd)
  -- No pair starts with a dash, so all are operands.
  have hevents : Event.ofArguments plainSwitches .awaited (ds.map spelt) =
      ds.map fun d => .operand (spelt d) := by
    rw [Event.ofArguments, ofArguments_words _ hwords]
    exact (scan_words _ _).trans List.map_map
  rw [set, hevents, readPairs_operands .set [] h]
  cases ds with
  | nil => exact absurd rfl hne
  | cons d rest => rfl

theorem defaults_words {name : Text} {words : List Text}
    (h : ∀ w ∈ name :: words, w.head? ≠ some (.char '-')) :
    defaults (name :: words) = choose .defaults "subcommand".text
      [("set".text, set), ("clear".text, bare .clear .clear), ("show".text, bare .show .show)]
      name words := by
  have hevents : Event.ofArguments plainSwitches .command (name :: words) =
      [.command name words] := by
    rw [Event.ofArguments, ofArguments_words _ h]
    simp [Event.scan, Function.comp_def, Token.raw]
  rw [defaults, hevents, readDefaults]
  cases choose .defaults "subcommand".text
      [("set".text, set), ("clear".text, bare .clear .clear), ("show".text, bare .show .show)]
      name words <;> rfl

theorem parse_defaults (verbose : Bool) {config : Option Text}
    (hc : ∀ c ∈ config, c.head? ≠ some (.char '-')) {words : List Text}
    (hw : ∀ w ∈ words, w.head? ≠ some (.char '-')) {command : Command}
    (h : defaults words = .ok (command, [])) :
    parse (topLine verbose config ++ "defaults".text :: words) =
      .ok ⟨config.map Path.ofText, verbose, command⟩ := by
  have hread : readCommand "defaults".text words = defaults words := rfl
  rw [parse_topLine verbose hc (by decide), ofArguments_words _ hw, hread, h]

end CommandLine

open CommandLine (Group topLine)

/-! ## Commands -/

theorem ending_run_eq_zero_iff {standard : Path} {fs : Files} {args : List Text} {r : Request}
    (hparse : CommandLine.parse args = .ok r) :
    (run standard fs args).ending = .exit 0 ↔
      ∃ d, (runCommand standard fs r).2 = .ok d ∧ d.code = 0 := by
  rw [run, hparse]
  simp only
  obtain ⟨fs', result⟩ := runCommand standard fs r
  cases result with
  | ok d => simp
  | error e =>
    simp only [reduceCtorEq, false_and, exists_false, iff_false]
    split <;> simp

theorem reported_succeeds_iff (change : Change SettingsError) (report : Text) :
    (∃ d, (reported change report).2 = .ok d ∧ d.code = 0) ↔ change.failure = none := by
  obtain ⟨fs, failure⟩ := change
  cases failure <;> simp [reported]

theorem files_reported (change : Change SettingsError) (report : Text) :
    (reported change report).1 = change.files := by
  obtain ⟨fs, failure⟩ := change
  cases failure <;> rfl

theorem readDefaults_known {ds : List (Text × Text)} (hk : ∀ d ∈ ds, ∃ k : Key, k.name = d.1) :
    readDefaults (ds.map fun d => ⟨d.1, d.2, false⟩) = .ok ds := by
  induction ds with
  | nil => rfl
  | cons d rest ih =>
    obtain ⟨⟨k, hname⟩, hrest⟩ := List.forall_mem_cons.1 hk
    have hkey : Key.ofName d.1 = .ok k := by
      rw [← hname, Key.ofName, Key.ofName?_name]
    rw [List.map_cons, readDefaults, hkey]
    simp only [ih hrest]

/-! ## Runs -/

/-- The settings file of a run that is given one, or none. -/
def configPath (standard : Path) (config : Option Text) : Path :=
  (config.map Path.ofText).getD standard

/-- Nothing is lost by leaving out names that start with a dash: the same file has another one. -/
theorem exists_spelling (t : Text) :
    ∃ c : Text, c.head? ≠ some (.char '-') ∧ Path.ofText c = Path.ofText t := by
  by_cases hdash : t.head? = some (.char '-')
  · refine ⟨.char '.' :: .char '/' :: t, by simp, ?_⟩
    obtain ⟨r, rfl⟩ := List.head?_eq_some_iff.1 hdash
    have hdot : CodePoint.char '/' ∉ [CodePoint.char '.'] := by decide
    have hpieces := pieces_append hdot (.char '-' :: r)
    rw [List.singleton_append] at hpieces
    rw [Path.ofText, hpieces]
    simp [Path.ofText, Path.leadingSlashes]
  · exact ⟨t, hdash, rfl⟩

/-- The arguments of a run that shows settings. -/
def showLine (verbose : Bool) (config : Option Text) : List Text :=
  topLine verbose config ++ ["defaults".text, "show".text]

/-- The arguments of a run that stores defaults. -/
def setLine (verbose : Bool) (config : Option Text) (pairs : List Text) : List Text :=
  topLine verbose config ++ "defaults".text :: "set".text :: pairs

section

variable (standard : Path) (verbose : Bool) {config : Option Text}
  (hc : ∀ c ∈ config, c.head? ≠ some (.char '-'))

include hc

/-- **Settings that are loaded are shown**, and no file changes. -/
theorem run_show {fs : Files} {s : Settings}
    (hs : Settings.load fs (configPath standard config) = .ok s) :
    run standard fs (showLine verbose config) = ⟨.exit 0, settingsText s, [], fs⟩ := by
  have hwords : ∀ w ∈ ["show".text], w.head? ≠ some (.char '-') := by decide
  have hshow : runShow fs (configPath standard config) = .ok ⟨0, settingsText s, []⟩ := by
    rw [runShow, hs]
  have hrun : runCommand standard fs ⟨config.map Path.ofText, verbose, .show⟩ =
      (fs, .ok ⟨0, settingsText s, []⟩) := congrArg (Prod.mk fs) hshow
  rw [run, showLine, CommandLine.parse_defaults verbose hc hwords rfl]
  simp only [hrun]

theorem parse_setLine {d : Entries Text Text} (hd : d ≠ [])
    (hk : ∀ e ∈ d, ∃ k : Key, k.name = e.1) (ht : ∀ e ∈ d, trim e.1 = e.1 ∧ trim e.2 = e.2) :
    CommandLine.parse (setLine verbose config (d.map spelt)) =
      .ok ⟨config.map Path.ofText, verbose, .set (d.map fun e => ⟨e.1, e.2, false⟩)⟩ := by
  have hpairs : ∀ e ∈ d, (Group.pair false e.1 e.2).WellFormed := by
    intro e he
    obtain ⟨k, hname⟩ := hk e he
    rw [← hname]
    exact k.wellFormed_pair e.2
  have hwords : ∀ w ∈ "set".text :: d.map spelt, w.head? ≠ some (.char '-') := by
    refine List.forall_mem_cons.2 ⟨by decide, ?_⟩
    intro w hw
    obtain ⟨e, he, rfl⟩ := List.mem_map.1 hw
    exact CommandLine.head?_spelt (hpairs e he)
  have htrim : (d.map fun e => (⟨trim e.1, trim e.2, false⟩ : Qualifier)) =
      d.map fun e => ⟨e.1, e.2, false⟩ := by
    refine List.map_congr_left ?_
    intro e he
    rw [(ht e he).1, (ht e he).2]
  refine CommandLine.parse_defaults verbose hc hwords ?_
  rw [CommandLine.defaults_words hwords, ← htrim, ← CommandLine.set_spelt hd hpairs]
  rfl

/-- **Pairs with known keys are stored** as they are, and the run ends well exactly if the store
succeeds. -/
theorem run_set {d : Entries Text Text} (hd : d ≠ []) (hnodup : d.keys.Nodup)
    (hk : ∀ e ∈ d, ∃ k : Key, k.name = e.1) (ht : ∀ e ∈ d, trim e.1 = e.1 ∧ trim e.2 = e.2)
    (fs : Files) :
    ((run standard fs (setLine verbose config (d.map spelt))).ending = .exit 0 ↔
        (Settings.store fs (configPath standard config) d).failure = none) ∧
      (run standard fs (setLine verbose config (d.map spelt))).files =
        (Settings.store fs (configPath standard config) d).files := by
  have hparse := parse_setLine verbose hc hd hk ht
  have hset : runSet fs (configPath standard config) (d.map fun e => ⟨e.1, e.2, false⟩) =
      reported (Settings.store fs (configPath standard config) d)
        ("Defaults stored at ".text ++ (configPath standard config).text) := by
    rw [runSet, readDefaults_known hk]
    simp only [Entries.ofList_of_nodup hnodup]
  have hrun : runCommand standard fs ⟨config.map Path.ofText, verbose,
      .set (d.map fun e => ⟨e.1, e.2, false⟩)⟩ = _ := hset
  constructor
  · rw [ending_run_eq_zero_iff hparse, hrun, reported_succeeds_iff]
  · rw [files_run_of_parse hparse, hrun, files_reported]

end

/-! ## Lines -/

/-- The lines of a text that ends with the end of a line. -/
def linesOf (t : Text) : List Text := (pieces '\n' t).dropLast

theorem linesOf_lines {ls : List Text} (h : ∀ l ∈ ls, OneLine l) :
    linesOf (ls.flatMap line) = ls := by
  have hpieces : pieces '\n' (ls.flatMap line) = ls ++ [[]] := by
    induction ls with
    | nil => rfl
    | cons l rest ih =>
      obtain ⟨hl, hrest⟩ := List.forall_mem_cons.1 h
      rw [List.flatMap_cons, line, List.append_assoc, List.singleton_append, pieces_append hl,
        ih hrest, List.cons_append]
  rw [linesOf, hpieces, List.dropLast_concat]

/-- The last line that shows settings. -/
def flagText (s : Settings) : Text :=
  "timezoned=".text ++ if s.timezoned then "yes".text else "no".text

theorem settingsText_eq {s : Settings} (hne : s.defaults ≠ []) :
    settingsText s = (s.defaults.map spelt ++ [flagText s]).flatMap line := by
  rw [settingsText, if_neg hne, List.flatMap_append, List.flatMap_map]
  simp [flagText, spelt]

/-- **Every default is a line** of its own, in front of the one for the flag. -/
theorem linesOf_settingsText {s : Settings} (hne : s.defaults ≠ [])
    (h : ∀ d ∈ s.defaults, OneLine d.1 ∧ OneLine d.2) :
    linesOf (settingsText s) = s.defaults.map spelt ++ [flagText s] := by
  rw [settingsText_eq hne]
  refine linesOf_lines ?_
  intro l hl
  rcases List.mem_append.1 hl with hl | hl
  · obtain ⟨d, hd, rfl⟩ := List.mem_map.1 hl
    obtain ⟨hkey, hvalue⟩ := h d hd
    exact oneLine_append.2 ⟨hkey, oneLine_cons.2 ⟨by decide, hvalue⟩⟩
  · obtain rfl := List.mem_singleton.1 hl
    rw [flagText]
    cases s.timezoned <;> decide

/-! ## Setting what is shown -/

/-- **What is shown can be set again.** Where no file is, `defaults set` with the pairs that
`defaults show` prints ends well exactly if a file can be made, and then the new file is loaded with
the same defaults in the same order, and shown with the same pairs. -/
theorem run_set_shown (standard : Path) (verbose : Bool) {config config' : Option Text}
    (hc : ∀ c ∈ config, c.head? ≠ some (.char '-'))
    (hc' : ∀ c ∈ config', c.head? ≠ some (.char '-')) {fs : Files} {s : Settings}
    (hs : Settings.load fs (configPath standard config) = .ok s) (hne : s.defaults ≠ [])
    (hk : ∀ d ∈ s.defaults, ∃ k : Key, k.name = d.1) (hline : ∀ d ∈ s.defaults, OneLine d.2)
    (hr : fs.read (configPath standard config') = .ok none) :
    let shown := run standard fs (showLine verbose config)
    let pairs := (linesOf shown.output).dropLast
    let set := run standard shown.files (setLine verbose config' pairs)
    let again := run standard set.files (showLine verbose config')
    shown.ending = .exit 0 ∧ (set.ending = .exit 0 ↔ fs.Writable (configPath standard config')) ∧
      (fs.Writable (configPath standard config') →
        Settings.load set.files (configPath standard config') = .ok ⟨s.defaults, false⟩ ∧
          again.ending = .exit 0 ∧
          again.output = (pairs ++ ["timezoned=no".text]).flatMap line) := by
  intro shown pairs set again
  have hclean := Settings.cleanEntry_of_load hs
  have hnodup : s.defaults.keys.Nodup := by
    obtain ⟨_, _, -, -, -, hdefaults⟩ := Settings.load_eq_ok_iff.1 hs
    rw [hdefaults]
    exact Entries.nodup_ofList _
  have htrim : ∀ d ∈ s.defaults, trim d.1 = d.1 ∧ trim d.2 = d.2 := fun d hd =>
    (hclean d hd).trimmed.2
  have hlines : ∀ d ∈ s.defaults, OneLine d.1 ∧ OneLine d.2 := by
    intro d hd
    obtain ⟨k, hname⟩ := hk d hd
    exact ⟨hname ▸ k.oneLine_name, hline d hd⟩
  have hshown : shown = ⟨.exit 0, settingsText s, [], fs⟩ := run_show standard verbose hc hs
  -- The last line shows the flag, and those in front are the pairs.
  have hpairs : pairs = s.defaults.map spelt := by
    show (linesOf shown.output).dropLast = _
    rw [hshown, linesOf_settingsText hne hlines, List.dropLast_concat]
  have hset : set = run standard fs (setLine verbose config' (s.defaults.map spelt)) := by
    show run standard shown.files (setLine verbose config' pairs) = _
    rw [hshown, hpairs]
  obtain ⟨hending, hfiles⟩ := run_set standard verbose hc' hne hnodup hk htrim fs
  have hsucceeds := Settings.store_succeeds_iff_writable hr hne
  refine ⟨by rw [hshown], ?_, ?_⟩
  · rw [hset, hending, hsucceeds]
  intro hw
  have hstore : Settings.store fs (configPath standard config') s.defaults = ⟨set.files, none⟩ := by
    rw [hset, hfiles, ← hsucceeds.2 hw]
  -- The file is new, so the defaults are all it holds.
  have hload := Settings.load_of_store_new hr hnodup hclean hstore
  have hagain : again = ⟨.exit 0, settingsText ⟨s.defaults, false⟩, [], set.files⟩ :=
    run_show standard verbose hc' hload
  have htext : settingsText ⟨s.defaults, false⟩ =
      (pairs ++ ["timezoned=no".text]).flatMap line := by
    rw [hpairs]
    exact settingsText_eq hne
  exact ⟨hload, by rw [hagain], by rw [hagain, htext]⟩

/-- Three defaults beside a flag: a value with quotes, signs of equality and a character above
U+FFFF, an empty value, and one that was a number. -/
theorem run_set_shown_signs :
    let standard := Path.ofText "default.json".text
    let fs : Files := ⟨[], [(standard.place, Utf8.encode
      ("\x7b\"timezoned\": true, \"defaults\": \x7b\" text\": \"=\\\"a=b\\\" \\ud83d\\ude00 \", " ++
        "\"org\": \"\", \"label\": 1.50\x7d\x7d").text)]⟩
    let defaults : Entries Text Text :=
      [("text".text, "=\"a=b\" 😀".text), ("org".text, []), ("label".text, "1.5".text)]
    let shown := run standard fs (showLine false none)
    let pairs := (linesOf shown.output).dropLast
    let set := run standard shown.files (setLine false (some "k/new.json".text) pairs)
    Settings.load fs (configPath standard none) = .ok ⟨defaults, true⟩ ∧ shown.ending = .exit 0 ∧
      set.ending = .exit 0 ∧
      Settings.load set.files (configPath standard (some "k/new.json".text)) =
        .ok ⟨defaults, false⟩ := by
  intro standard fs defaults
  have hread :
      (Settings.load fs (configPath standard none)).toOption.any (· = ⟨defaults, true⟩) = true := by
    decide +kernel
  obtain ⟨s, hs, hcheck⟩ := exists_ok_of_any hread
  obtain rfl := of_decide_eq_true hcheck
  have hc : ∀ c ∈ (none : Option Text), c.head? ≠ some (.char '-') := nofun
  have hc' : ∀ c ∈ some "k/new.json".text, c.head? ≠ some (.char '-') := by
    intro c hc
    obtain rfl := Option.some.inj hc
    decide
  have hk : ∀ d ∈ defaults, ∃ k : Key, k.name = d.1 := by
    refine List.forall_mem_cons.2 ⟨⟨.text, rfl⟩, List.forall_mem_cons.2 ⟨⟨.org, rfl⟩, ?_⟩⟩
    exact List.forall_mem_cons.2 ⟨⟨.label, rfl⟩, nofun⟩
  have hline : ∀ d ∈ defaults, OneLine d.2 := by decide
  have hw : fs.Writable (configPath standard (some "k/new.json".text)) := fun _ => rfl
  obtain ⟨hshown, hset, hnew⟩ :=
    run_set_shown standard false hc hc' hs (List.cons_ne_nil _ _) hk hline rfl
  exact ⟨hs, hshown, hset.2 hw, (hnew hw).1⟩

/-- The folder `k/..` is no file, nor can it become one, so what is shown cannot be set there. -/
theorem run_set_shown_above_new_folder :
    let standard := Path.ofText "default.json".text
    let fs : Files := ⟨[], [(standard.place, Utf8.encode
      "\x7b\"defaults\": \x7b\"org\": \"a\"\x7d\x7d".text)]⟩
    let path := Path.ofText "k/..".text
    let shown := run standard fs (showLine false none)
    let pairs := (linesOf shown.output).dropLast
    Settings.load fs standard = .ok ⟨[("org".text, "a".text)], false⟩ ∧
      shown.ending = .exit 0 ∧ shown.files.read path = .ok none ∧
      (run standard shown.files (setLine false (some "k/..".text) pairs)).ending =
        .failure (.settings (.unusable ⟨.isFolder, path⟩)) := by
  intro standard fs path shown pairs
  have hread : (Settings.load fs standard).toOption.any
      (· = ⟨[("org".text, "a".text)], false⟩) = true := by decide +kernel
  obtain ⟨s, hs, hcheck⟩ := exists_ok_of_any hread
  obtain rfl := of_decide_eq_true hcheck
  have hc : ∀ c ∈ (none : Option Text), c.head? ≠ some (.char '-') := nofun
  have hshown : shown = ⟨.exit 0, settingsText ⟨[("org".text, "a".text)], false⟩, [], fs⟩ :=
    run_show standard false hc hs
  have hpairs : pairs = ["org=a".text] := by
    show (linesOf shown.output).dropLast = _
    rw [hshown]
    decide
  rw [hpairs, hshown]
  exact ⟨hs, rfl, rfl, rfl⟩

end SearchQuery
