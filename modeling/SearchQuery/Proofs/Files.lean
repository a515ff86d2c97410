import SearchQuery.Files
import SearchQuery.Proofs.Entries
import SearchQuery.Proofs.Text

/-!
# Where files can be kept

A path is `Writable` when a file can be put where it leads to, whatever the file is to hold. This
module says how writing and removing one file look through `Files.read` at its path:

* a write to a writable path succeeds, reads back, and leaves the path writable,
* a file that can be read can be written again (`writable_of_read`), and only the last of two writes
  is seen (`write_write`),
* a write that fails does so whatever the file was to hold (`write_of_failure`), and
* removing it succeeds, leaves nothing to read there and the path writable (`remove_of_read`).

A writable path may still have folders missing on its way. Once there is a file at its end, or was
one, its folder exists (`find_folder_of_file`), and all that a later change depends on is what the
place at the end holds (`find_of_folder`).
-/

namespace SearchQuery

/-! ## Sizes -/

theorem joined_concat (glue : Text) (ts : List Text) (t : Text) :
    joined glue (ts ++ [t]) = joined glue ts ++ (if ts = [] then [] else glue) ++ t := by
  induction ts with
  | nil => rfl
  | cons u us ih =>
    cases us with
    | nil => simp [joined]
    | cons v vs =>
      simp only [List.cons_append, joined, reduceCtorEq, if_false] at ih ⊢
      rw [ih]
      simp [List.append_assoc]

namespace Path

/-- The folder of a path is not named by more bytes than the path, or it is the working
directory. -/
theorem byteCount_text_folder {p : Path} (h : byteCount p.text ≤ pathLimit) :
    byteCount p.folder.text ≤ pathLimit := by
  rcases List.eq_nil_or_concat p.parts with hp | ⟨init, last, hp⟩
  · have hf : p.folder = p := by
      rw [folder, hp, List.dropLast_nil, ← hp]
    rwa [hf]
  · rw [List.concat_eq_append] at hp
    have hfolder : p.folder = { p with parts := init } := by
      rw [folder, hp, List.dropLast_concat]
    rw [text, if_neg (by simp [hp]), hp, joined_concat, byteCount_append, byteCount_append,
      byteCount_append] at h
    rw [hfolder, text]
    split
    · decide
    · rw [byteCount_append]
      simp only at h ⊢
      omega

theorem holdsNull_folder {p : Path} (h : ¬ p.holdsNull = true) : ¬ p.folder.holdsNull = true := by
  intro hn
  obtain ⟨part, hm, hp⟩ := List.any_eq_true.1 hn
  exact h (List.any_eq_true.2 ⟨part, (List.dropLast_sublist _).subset hm, hp⟩)

end Path

namespace Files

/-! ## What is found -/

theorem follow_dropLast {fs : Files} {place : Place} {parts : List Text} {bytes : Bytes}
    (h : fs.follow place parts = .ok (.file bytes)) :
    fs.follow place parts.dropLast = .ok .folder := by
  induction parts generalizing place with
  | nil => rfl
  | cons part rest ih =>
    cases rest with
    | nil => rfl
    | cons next rest =>
      obtain ⟨hl, ⟨hh, hr⟩ | ⟨_, -, hr, -⟩ | ⟨-, hf⟩⟩ := follow_cons h
      · rw [List.dropLast_cons_cons, follow_cons_of_folder hl hh, ih hr]
      · cases hr
      · cases hf

theorem find_folder_of_file {fs : Files} {path : Path} {bytes : Bytes}
    (h : fs.find path = .ok (.file bytes)) : fs.find path.folder = .ok .folder := by
  obtain ⟨hnull, hlong, hfollow⟩ := find_eq_ok_iff.1 h
  have hlong' := Path.byteCount_text_folder (Nat.not_lt.1 hlong)
  exact find_eq_ok_iff.2 ⟨Path.holdsNull_folder hnull, Nat.not_lt.2 hlong', follow_dropLast hfollow⟩

/-- Behind a folder that exists, a path leads to what its place holds, and stays a path to a file
or to nothing when the files change. -/
theorem find_of_folder {fs : Files} {path : Path} {found : Found}
    (hfolder : fs.find path.folder = .ok .folder) (h : fs.find path = .ok found)
    (hne : found ≠ .folder) (contents : Entries Place Bytes) :
    find { fs with contents := contents } path.folder = .ok .folder ∧
      find { fs with contents := contents } path =
        .ok (match contents.find? path.place with
          | some bytes => .file bytes
          | none => .nothing) := by
  obtain ⟨hnull, hlong, hw⟩ := find_eq_ok_iff.1 hfolder
  exact ⟨find_eq_ok_iff.2 ⟨hnull, hlong, follow_of_contents hw contents⟩,
    find_of_contents hw h hne contents⟩

/-! ## Writing -/

/-- A write that succeeds has made the folders and found no folder in its place. -/
theorem makeFolder_of_write {fs : Files} {path : Path} {bytes : Bytes}
    (h : (fs.write path bytes).failure = none) :
    ∃ fs' found, fs.makeFolder path.folder = ⟨fs', none⟩ ∧ fs'.find path = .ok found ∧
      found ≠ .folder := by
  rw [Files.write] at h
  generalize fs.makeFolder path.folder = made at h ⊢
  obtain ⟨fs', failure⟩ := made
  cases failure with
  | some e => simp at h
  | none =>
    simp only [put] at h
    cases hf : fs'.find path with
    | error o => simp [hf] at h
    | ok found =>
      refine ⟨fs', found, rfl, hf, ?_⟩
      rintro rfl
      simp [hf] at h

theorem exists_write {fs : Files} {path : Path} {bytes : Bytes}
    (h : (fs.write path bytes).failure = none) :
    ∃ fm : Files, ∀ bytes', fs.write path bytes' =
      ⟨{ fm with contents := fm.contents.put path.place bytes' }, none⟩ := by
  obtain ⟨fm, found, hm, hf, hne⟩ := makeFolder_of_write h
  refine ⟨fm, fun bytes' => ?_⟩
  rw [Files.write, hm]
  cases found with
  | folder => exact absurd rfl hne
  | file b => simp only [put, hf]
  | nothing => simp only [put, hf]

/-- A file can be put where a path leads to, whatever it is to hold. -/
def Writable (fs : Files) (path : Path) : Prop := ∀ bytes, (fs.write path bytes).failure = none

theorem writable_iff {fs : Files} {path : Path} (bytes : Bytes) :
    fs.Writable path ↔ (fs.write path bytes).failure = none := by
  constructor
  · intro h
    exact h bytes
  · intro h bytes'
    obtain ⟨fm, hw⟩ := exists_write h
    rw [hw bytes']

theorem Writable.write {fs : Files} {path : Path} (h : fs.Writable path) (bytes : Bytes) :
    ∃ fs', fs.write path bytes = ⟨fs', none⟩ ∧ fs'.read path = .ok (some bytes) := by
  have hw : fs.write path bytes = ⟨(fs.write path bytes).files, none⟩ := by
    rw [← h bytes]
  exact ⟨_, hw, read_write hw⟩

theorem makeFolders_of_makeFolder {fs fs' : Files} {path : Path}
    (h : fs.makeFolder path = ⟨fs', none⟩) : fs.makeFolders path.root path.parts = ⟨fs', none⟩ := by
  rw [makeFolder] at h
  cases hf : fs.find path with
  | error o => simp [hf] at h
  | ok found => simpa only [hf] using h

theorem makeFolders_of_follow {fs : Files} {path : Path} {parts : List Text}
    (h : fs.follow path.place parts = .ok .folder) : fs.makeFolders path parts = ⟨fs, none⟩ := by
  induction parts generalizing path with
  | nil => rfl
  | cons part rest ih =>
    obtain ⟨hl, hh, hr⟩ := follow_cons_to_folder h
    rw [← Path.place_child] at hr
    simp only [makeFolders, if_neg hl, Path.place_child, hh]
    exact ih hr

theorem follow_of_makeFolders {fs : Files} {path : Path} {parts : List Text}
    (h : (fs.makeFolders path parts).failure = none) :
    fs.follow path.place parts = .ok .folder ∨ fs.follow path.place parts = .ok .nothing := by
  induction parts generalizing path with
  | nil => exact .inl rfl
  | cons part rest ih =>
    obtain ⟨hl, ⟨hh, hmake⟩ | ⟨hh, -⟩⟩ := makeFolders_cons h
    · rw [hmake] at h
      rw [follow_cons_of_folder hl hh, ← Path.place_child]
      exact ih h
    · exact .inr (by rw [follow, if_neg hl, hh])

theorem follow_append_nothing {fs : Files} {place : Place} {parts : List Text}
    (h : fs.follow place parts = .ok .nothing) (more : List Text) :
    fs.follow place (parts ++ more) = .ok .nothing := by
  induction parts generalizing place with
  | nil => cases h
  | cons part rest ih =>
    obtain ⟨hl, ⟨hh, hr⟩ | ⟨_, -, -, hf⟩ | ⟨hh, -⟩⟩ := follow_cons h
    · rw [List.cons_append, follow_cons_of_folder hl hh, ih hr]
    · cases hf
    · rw [List.cons_append, follow, if_neg hl, hh]

theorem Writable.read {fs : Files} {path : Path} (h : fs.Writable path) :
    ∃ bytes?, fs.read path = .ok bytes? := by
  obtain ⟨fs', found, hm, hf, hne⟩ := makeFolder_of_write (h [])
  obtain ⟨hnull, hlong, -⟩ := find_eq_ok_iff.1 hf
  have hmakes : fs.makeFolders path.folder.root path.folder.parts = ⟨fs', none⟩ :=
    makeFolders_of_makeFolder hm
  have hmade : (fs.makeFolders path.folder.root path.folder.parts).failure = none := by
    rw [hmakes]
  -- Either the folders are there, or the first that is missing hides the file.
  rcases follow_of_makeFolders hmade with hfolder | hnothing
  · have hsame : fs' = fs :=
      congrArg Change.files (hmakes.symm.trans (makeFolders_of_follow hfolder))
    rw [hsame] at hf
    cases found with
    | folder => exact absurd rfl hne
    | file bytes => exact ⟨some bytes, by rw [Files.read, hf]⟩
    | nothing => exact ⟨none, by rw [Files.read, hf]⟩
  · have hfind : fs.find path = .ok .nothing := by
      refine find_eq_ok_iff.2 ⟨hnull, hlong, ?_⟩
      rcases List.eq_nil_or_concat path.parts with hp | ⟨init, last, hp⟩
      · rw [Path.folder, hp] at hnothing
        cases hnothing
      · rw [List.concat_eq_append] at hp
        have hinit : path.folder.parts = init := by rw [Path.folder, hp, List.dropLast_concat]
        rw [hinit] at hnothing
        rw [hp]
        exact follow_append_nothing hnothing _
    exact ⟨none, by rw [Files.read, hfind]⟩

theorem write_of_folder {fs : Files} {path : Path} {found : Found}
    (hfolder : fs.find path.folder = .ok .folder) (h : fs.find path = .ok found)
    (hne : found ≠ .folder) (bytes : Bytes) :
    fs.write path bytes = ⟨{ fs with contents := fs.contents.put path.place bytes }, none⟩ := by
  have hw := (find_eq_ok_iff.1 hfolder).2.2
  have hm : fs.makeFolder path.folder = ⟨fs, none⟩ := by
    rw [makeFolder, hfolder]
    exact makeFolders_of_follow hw
  rw [write, hm]
  cases found with
  | folder => exact absurd rfl hne
  | file b => simp only [put, h]
  | nothing => simp only [put, h]

theorem find_of_read_some {fs : Files} {path : Path} {bytes : Bytes}
    (h : fs.read path = .ok (some bytes)) : fs.find path = .ok (.file bytes) := by
  rw [read] at h
  cases hf : fs.find path with
  | error o => simp [hf] at h
  | ok found =>
    cases found with
    | folder => simp [hf] at h
    | file b =>
      simp only [hf] at h
      rw [Option.some.inj (Except.ok.inj h)]
    | nothing => simp [hf] at h

theorem writable_of_read {fs : Files} {path : Path} {bytes : Bytes}
    (h : fs.read path = .ok (some bytes)) : fs.Writable path := by
  intro bytes'
  have hf := find_of_read_some h
  rw [write_of_folder (find_folder_of_file hf) hf (by simp)]

theorem write_of_failure {fs fs' : Files} {path : Path} {bytes : Bytes} {e : FileError}
    (h : fs.write path bytes = ⟨fs', some e⟩) (bytes' : Bytes) :
    fs.write path bytes' = ⟨fs', some e⟩ := by
  rw [write] at h ⊢
  generalize fs.makeFolder path.folder = made at h ⊢
  obtain ⟨fm, failure⟩ := made
  cases failure with
  | some e' => exact h
  | none =>
    simp only [put] at h ⊢
    -- What fails is decided before a byte is written.
    cases hf : fm.find path with
    | error o => simpa only [hf] using h
    | ok found =>
      cases found with
      | folder => simpa only [hf] using h
      | file b => simp [hf] at h
      | nothing => simp [hf] at h

/-- **Only the last write** to a path is seen. -/
theorem write_write {fs fs₁ : Files} {path : Path} {first : Bytes}
    (h : fs.write path first = ⟨fs₁, none⟩) (second : Bytes) :
    fs₁.write path second = fs.write path second := by
  have hok : (fs.write path first).failure = none := by rw [h]
  obtain ⟨fm, hw⟩ := exists_write hok
  have hfs₁ : fs₁ = { fm with contents := fm.contents.put path.place first } :=
    congrArg Change.files (h.symm.trans (hw first))
  have hfile : fs₁.find path = .ok (.file first) := find_of_read_some (read_write h)
  rw [write_of_folder (find_folder_of_file hfile) hfile (by simp), hw, hfs₁]
  simp only [Entries.put_put]

/-! ## Removing -/

/-- Removing a file leaves nothing to read in its place, and a new one can be put there. -/
theorem remove_of_read {fs : Files} {path : Path} {bytes : Bytes}
    (h : fs.read path = .ok (some bytes)) :
    ∃ fs', fs.remove path = ⟨fs', none⟩ ∧ fs'.read path = .ok none ∧ fs'.Writable path := by
  have hf := find_of_read_some h
  obtain ⟨hfolder, hplace⟩ := find_of_folder (find_folder_of_file hf) hf (by simp)
    (fs.contents.erase path.place)
  rw [Entries.find?_erase_self] at hplace
  refine ⟨{ fs with contents := fs.contents.erase path.place }, ?_, ?_, ?_⟩
  · rw [remove, hf]
  · rw [read, hplace]
  · intro bytes'
    rw [write_of_folder hfolder hplace (by simp)]

theorem read_remove {fs fs' : Files} {path : Path} (h : fs.remove path = ⟨fs', none⟩) :
    fs'.read path = .ok none := by
  cases hf : fs.find path with
  | error o => simp [remove, hf] at h
  | ok found =>
    cases found with
    | folder => simp [remove, hf] at h
    | file bytes =>
      have hr : fs.read path = .ok (some bytes) := by rw [read, hf]
      obtain ⟨fs₁, hremove, hr', -⟩ := remove_of_read hr
      rw [hremove] at h
      cases h
      exact hr'
    | nothing =>
      simp only [remove, hf, Change.mk.injEq, and_true] at h
      rw [← h, read, hf]

end Files

end SearchQuery
