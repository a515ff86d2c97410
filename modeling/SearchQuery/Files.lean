import SearchQuery.Entries
import SearchQuery.Path
import SearchQuery.Text.Quoted

/-!
# Files

`Files` has the bytes of every file and the folders that were made.

**Finding.** `Files.find` follows a path from folder to folder. What it finds is a folder, a file,
or nothing as soon as a name on the way does not exist; a file on the way and a name that is too
long are obstacles. A name with a half in it is a name like any other, with the bytes of
`byteCount`; a system may refuse such a name, or write the half as one byte of its own.

**Writing.** `Files.write` makes every folder on the way, then the file. `read_write` says that a
file reads back as it was written. A write that fails may leave new folders, but no file changes:
`contents_write`.
-/

namespace SearchQuery

abbrev Bytes := List UInt8

/-! ## Failures -/

/-- Why a path cannot be used. -/
inductive Obstacle where
  /-- The path holds the null character. -/
  | null
  /-- A name, or the path as a whole, has too many bytes. -/
  | tooLong
  /-- The path leads through a file. -/
  | notFolder
  /-- The path leads to a folder where a file is wanted. -/
  | isFolder
  /-- The path leads to a file where a folder is wanted. -/
  | isFile
deriving DecidableEq, Repr

/-- An obstacle, and the path on which it was met. -/
structure FileError where
  obstacle : Obstacle
  path : Path
deriving DecidableEq, Repr

/-- A message about a path: the number of the failure, its words, and the path. -/
def FileError.about (number words : Text) (path : Path) : Text :=
  "[Errno ".text ++ number ++ "] ".text ++ words ++ ": ".text ++ quoted path.text

def FileError.message (e : FileError) : Text :=
  match e.obstacle with
  | .null => "embedded null byte".text
  | .tooLong => about "36".text "File name too long".text e.path
  | .notFolder => about "20".text "Not a directory".text e.path
  | .isFolder => about "21".text "Is a directory".text e.path
  | .isFile => about "17".text "File exists".text e.path

/-- The most bytes that a name may have. -/
def nameLimit : Nat := 255

/-- The most bytes that a path may have. -/
def pathLimit : Nat := 4095

/-! ## Finding -/

structure Files where
  folders : List Place
  contents : Entries Place Bytes
deriving DecidableEq, Repr

/-- What is at the end of a path. -/
inductive Found where
  | folder
  | file (bytes : Bytes)
  | nothing
deriving DecidableEq, Repr

/-- The files after a change, and why it failed if it did. -/
structure Change (ε : Type) where
  files : Files
  failure : Option ε

namespace Files

def empty : Files := ⟨[], []⟩

def isFolder (fs : Files) (p : Place) : Bool := p.isOutside || fs.folders.contains p

/-- What a place holds. -/
def holding (fs : Files) (p : Place) : Found :=
  if fs.isFolder p then .folder
  else
    match fs.contents.find? p with
    | some bytes => .file bytes
    | none => .nothing

/-- Follows the parts of a path from a folder on. -/
def follow (fs : Files) (place : Place) : List Text → Except Obstacle Found
  | [] => .ok .folder
  | part :: rest =>
    if nameLimit < byteCount part then .error .tooLong
    else
      match fs.holding (place.go part) with
      | .folder => fs.follow (place.go part) rest
      | .file bytes => if rest = [] then .ok (.file bytes) else .error .notFolder
      | .nothing => .ok .nothing

/-- What a path leads to. -/
def find (fs : Files) (path : Path) : Except Obstacle Found :=
  if path.holdsNull then .error .null
  else if pathLimit < byteCount path.text then .error .tooLong
  else fs.follow path.start path.parts

/-- The bytes of a file, nothing when there is no such file. -/
def read (fs : Files) (path : Path) : Except FileError (Option Bytes) :=
  match fs.find path with
  | .error o => .error ⟨o, path⟩
  | .ok .folder => .error ⟨.isFolder, path⟩
  | .ok (.file bytes) => .ok (some bytes)
  | .ok .nothing => .ok none

/-! ## Changes -/

/-- Makes the missing folders from a path down through some more parts. -/
def makeFolders (fs : Files) (path : Path) : List Text → Change FileError
  | [] => ⟨fs, none⟩
  | part :: rest =>
    let path := path.child part
    if nameLimit < byteCount part then ⟨fs, some ⟨.tooLong, path⟩⟩
    else
      match fs.holding path.place with
      | .folder => fs.makeFolders path rest
      | .file _ => ⟨fs, some ⟨.isFile, path⟩⟩
      | .nothing => makeFolders { fs with folders := fs.folders ++ [path.place] } path rest

/-- Makes a folder, and those on the way to it that do not exist. -/
def makeFolder (fs : Files) (path : Path) : Change FileError :=
  match fs.find path with
  | .error o => ⟨fs, some ⟨o, path⟩⟩
  | .ok _ => fs.makeFolders path.root path.parts

/-- Puts bytes where a path leads to. Its folder exists. -/
def put (fs : Files) (path : Path) (bytes : Bytes) : Change FileError :=
  match fs.find path with
  | .error o => ⟨fs, some ⟨o, path⟩⟩
  | .ok .folder => ⟨fs, some ⟨.isFolder, path⟩⟩
  | .ok _ => ⟨{ fs with contents := fs.contents.put path.place bytes }, none⟩

/-- Writes a file and makes the folders on the way. -/
def write (fs : Files) (path : Path) (bytes : Bytes) : Change FileError :=
  let made := fs.makeFolder path.folder
  match made.failure with
  | some e => ⟨made.files, some e⟩
  | none => made.files.put path bytes

/-- Removes a file, if there is one. -/
def remove (fs : Files) (path : Path) : Change FileError :=
  match fs.find path with
  | .error o => ⟨fs, some ⟨o, path⟩⟩
  | .ok .folder => ⟨fs, some ⟨.isFolder, path⟩⟩
  | .ok .nothing => ⟨fs, none⟩
  | .ok (.file _) => ⟨{ fs with contents := fs.contents.erase path.place }, none⟩

/-! ## What a change keeps -/

theorem contents_makeFolders (fs : Files) (path : Path) (parts : List Text) :
    (fs.makeFolders path parts).files.contents = fs.contents := by
  induction parts generalizing fs path with
  | nil => rfl
  | cons part rest ih =>
    simp only [makeFolders]
    split
    · rfl
    · split <;> simp [ih]

theorem contents_makeFolder (fs : Files) (path : Path) :
    (fs.makeFolder path).files.contents = fs.contents := by
  unfold makeFolder
  split
  · rfl
  · exact contents_makeFolders ..

theorem contents_put (fs : Files) (path : Path) (bytes : Bytes) :
    (fs.put path bytes).files.contents =
      if (fs.put path bytes).failure.isSome then fs.contents
      else fs.contents.put path.place bytes := by
  unfold put
  split <;> rfl

/-- A write puts the bytes in their place, or fails and changes no file. -/
theorem contents_write (fs : Files) (path : Path) (bytes : Bytes) :
    (fs.write path bytes).files.contents =
      if (fs.write path bytes).failure.isSome then fs.contents
      else fs.contents.put path.place bytes := by
  unfold write
  cases h : (fs.makeFolder path.folder).failure with
  | some e => simp [h, contents_makeFolder]
  | none => simp [h, contents_put, contents_makeFolder]

/-! ## Ways -/

theorem holding_eq_folder_iff {fs : Files} {p : Place} :
    fs.holding p = .folder ↔ fs.isFolder p = true := by
  unfold holding
  by_cases h : fs.isFolder p = true
  · simp [h]
  · cases hc : fs.contents.find? p <;> simp [h]

/-- **One step of a way**: through a folder, to a file at its end, or to nothing. -/
theorem follow_cons {fs : Files} {place : Place} {part : Text} {rest : List Text} {found : Found}
    (h : fs.follow place (part :: rest) = .ok found) :
    ¬ nameLimit < byteCount part ∧
      (fs.holding (place.go part) = .folder ∧ fs.follow (place.go part) rest = .ok found ∨
        (∃ bytes, fs.holding (place.go part) = .file bytes ∧ rest = [] ∧ found = .file bytes) ∨
        fs.holding (place.go part) = .nothing ∧ found = .nothing) := by
  rw [follow] at h
  by_cases hl : nameLimit < byteCount part
  · rw [if_pos hl] at h
    cases h
  · rw [if_neg hl] at h
    refine ⟨hl, ?_⟩
    cases hh : fs.holding (place.go part) with
    | folder =>
      simp only [hh] at h
      exact .inl ⟨rfl, h⟩
    | file bytes =>
      simp only [hh] at h
      by_cases hr : rest = []
      · rw [if_pos hr] at h
        exact .inr (.inl ⟨bytes, rfl, hr, (Except.ok.inj h).symm⟩)
      · rw [if_neg hr] at h
        cases h
    | nothing =>
      simp only [hh] at h
      exact .inr (.inr ⟨rfl, (Except.ok.inj h).symm⟩)

theorem follow_cons_of_folder {fs : Files} {place : Place} {part : Text}
    (hl : ¬ nameLimit < byteCount part) (hh : fs.holding (place.go part) = .folder)
    (rest : List Text) : fs.follow place (part :: rest) = fs.follow (place.go part) rest := by
  rw [follow, if_neg hl, hh]

/-- A way to a folder leads through folders. -/
theorem follow_cons_to_folder {fs : Files} {place : Place} {part : Text} {rest : List Text}
    (h : fs.follow place (part :: rest) = .ok .folder) :
    ¬ nameLimit < byteCount part ∧ fs.holding (place.go part) = .folder ∧
      fs.follow (place.go part) rest = .ok .folder := by
  obtain ⟨hl, ⟨hh, hr⟩ | ⟨_, -, -, hf⟩ | ⟨-, hf⟩⟩ := follow_cons h
  · exact ⟨hl, hh, hr⟩
  · cases hf
  · cases hf

/-- A way through folders can be followed in two steps. -/
theorem follow_append {fs : Files} {place : Place} {parts : List Text}
    (h : fs.follow place parts = .ok .folder) (more : List Text) :
    fs.follow place (parts ++ more) = fs.follow (parts.foldl Place.go place) more := by
  induction parts generalizing place with
  | nil => rfl
  | cons part rest ih =>
    obtain ⟨hl, hh, hr⟩ := follow_cons_to_folder h
    rw [List.cons_append, follow_cons_of_folder hl hh, ih hr]
    rfl

/-- A way through folders stays one when files change. -/
theorem follow_of_contents {fs : Files} {place : Place} {parts : List Text}
    (h : fs.follow place parts = .ok .folder) (contents : Entries Place Bytes) :
    follow { fs with contents := contents } place parts = .ok .folder := by
  induction parts generalizing place with
  | nil => rfl
  | cons part rest ih =>
    obtain ⟨hl, hh, hr⟩ := follow_cons_to_folder h
    have hfolder : fs.isFolder (place.go part) = true := holding_eq_folder_iff.1 hh
    have hf : isFolder { fs with contents := contents } (place.go part) = true := hfolder
    rw [follow_cons_of_folder hl (holding_eq_folder_iff.2 hf), ih hr]

/-- Behind folders, the last part leads to what its place holds. -/
theorem follow_concat {fs : Files} {place : Place} {parts : List Text}
    (h : fs.follow place parts = .ok .folder) (last : Text) :
    fs.follow place (parts ++ [last]) =
      if nameLimit < byteCount last then .error .tooLong
      else .ok (fs.holding ((parts.foldl Place.go place).go last)) := by
  rw [follow_append h, follow]
  cases fs.holding ((parts.foldl Place.go place).go last) <;> rfl

theorem find_eq_ok_iff {fs : Files} {path : Path} {found : Found} :
    fs.find path = .ok found ↔ ¬ path.holdsNull = true ∧ ¬ pathLimit < byteCount path.text ∧
      fs.follow path.start path.parts = .ok found := by
  unfold find
  by_cases hnull : path.holdsNull = true
  · simp [hnull]
  · by_cases hlong : pathLimit < byteCount path.text
    · simp [hnull, hlong]
    · simp [hnull, hlong]

/-- Behind a folder, a path leads to what its place holds, and does so when files change. -/
theorem find_of_contents {fs : Files} {path : Path} {found : Found}
    (hw : fs.follow path.start path.parts.dropLast = .ok .folder) (h : fs.find path = .ok found)
    (hne : found ≠ .folder) (contents : Entries Place Bytes) :
    find { fs with contents := contents } path =
      .ok (match contents.find? path.place with
        | some bytes => .file bytes
        | none => .nothing) := by
  obtain ⟨hnull, hlong, hf⟩ := find_eq_ok_iff.1 h
  refine find_eq_ok_iff.2 ⟨hnull, hlong, ?_⟩
  rcases List.eq_nil_or_concat path.parts with hp | ⟨init, last, hp⟩
  · rw [hp] at hf
    exact absurd (Except.ok.inj hf).symm hne
  · rw [List.concat_eq_append] at hp
    rw [hp, List.dropLast_concat] at hw
    have hplace : path.place = (init.foldl Place.go path.start).go last := by
      simp [Path.place, hp]
    rw [hp, follow_concat hw, ← hplace] at hf
    rw [hp, follow_concat (follow_of_contents hw contents), ← hplace]
    by_cases hname : nameLimit < byteCount last
    · rw [if_pos hname] at hf
      cases hf
    · rw [if_neg hname] at hf ⊢
      have hout : ¬ fs.isFolder path.place = true := fun hi =>
        hne ((Except.ok.inj hf).symm.trans (holding_eq_folder_iff.2 hi))
      have hout' : ¬ isFolder { fs with contents := contents } path.place = true := hout
      exact congrArg Except.ok (if_neg hout')

/-! ## Made folders -/

theorem isFolder_makeFolders {fs : Files} {p : Place} (h : fs.isFolder p = true) (path : Path)
    (parts : List Text) : (fs.makeFolders path parts).files.isFolder p = true := by
  induction parts generalizing fs path with
  | nil => exact h
  | cons part rest ih =>
    simp only [makeFolders]
    split
    · exact h
    · split
      · exact ih h _
      · exact h
      · refine ih ?_ _
        simp only [isFolder, Bool.or_eq_true, List.contains_eq_mem, List.mem_append,
          decide_eq_true_eq] at h ⊢
        exact h.imp_right Or.inl

/-- **One folder on the way**: it is there, or it is made where nothing is. -/
theorem makeFolders_cons {fs : Files} {path : Path} {part : Text} {rest : List Text}
    (h : (fs.makeFolders path (part :: rest)).failure = none) :
    ¬ nameLimit < byteCount part ∧
      (fs.holding (path.place.go part) = .folder ∧
          fs.makeFolders path (part :: rest) = fs.makeFolders (path.child part) rest ∨
        fs.holding (path.place.go part) = .nothing ∧
          fs.makeFolders path (part :: rest) =
            makeFolders { fs with folders := fs.folders ++ [path.place.go part] }
              (path.child part) rest) := by
  simp only [makeFolders, Path.place_child] at h ⊢
  by_cases hl : nameLimit < byteCount part
  · rw [if_pos hl] at h
    cases h
  · rw [if_neg hl] at h
    simp only [if_neg hl]
    refine ⟨hl, ?_⟩
    cases hh : fs.holding (path.place.go part) with
    | folder => exact .inl ⟨rfl, rfl⟩
    | file bytes =>
      simp only [hh] at h
      cases h
    | nothing => exact .inr ⟨rfl, rfl⟩

/-- The folders that were made can be followed. -/
theorem follow_makeFolders {fs : Files} {path : Path} {parts : List Text}
    (h : (fs.makeFolders path parts).failure = none) :
    (fs.makeFolders path parts).files.follow path.place parts = .ok .folder := by
  induction parts generalizing fs path with
  | nil => rfl
  | cons part rest ih =>
    obtain ⟨hl, ⟨hh, hmake⟩ | ⟨-, hmake⟩⟩ := makeFolders_cons h
    · rw [hmake] at h ⊢
      have hrest := ih h
      rw [Path.place_child] at hrest
      have hf := isFolder_makeFolders (holding_eq_folder_iff.1 hh) (path.child part) rest
      rw [follow_cons_of_folder hl (holding_eq_folder_iff.2 hf), hrest]
    · rw [hmake] at h ⊢
      have hrest := ih h
      rw [Path.place_child] at hrest
      have hnew : isFolder { fs with folders := fs.folders ++ [path.place.go part] }
          (path.place.go part) = true := by simp [isFolder]
      have hf := isFolder_makeFolders hnew (path.child part) rest
      rw [follow_cons_of_folder hl (holding_eq_folder_iff.2 hf), hrest]

/-! ## Reading back -/

/-- What is put behind folders is found there. -/
theorem read_put {fs fs' : Files} {path : Path} {bytes : Bytes}
    (hw : fs.follow path.start path.parts.dropLast = .ok .folder)
    (h : fs.put path bytes = ⟨fs', none⟩) : fs'.read path = .ok (some bytes) := by
  rw [put] at h
  cases hf : fs.find path with
  | error o => simp [hf] at h
  | ok found =>
    have hne : found ≠ .folder := by
      rintro rfl
      simp [hf] at h
    have hfs : fs' = { fs with contents := fs.contents.put path.place bytes } := by
      cases found with
      | folder => exact absurd rfl hne
      | file b =>
        simp only [hf, Change.mk.injEq, and_true] at h
        exact h.symm
      | nothing =>
        simp only [hf, Change.mk.injEq, and_true] at h
        exact h.symm
    rw [hfs, read, find_of_contents hw hf hne, Entries.find?_put, if_pos rfl]

/-- **A file reads back as it was written.** -/
theorem read_write {fs fs' : Files} {path : Path} {bytes : Bytes}
    (h : fs.write path bytes = ⟨fs', none⟩) : fs'.read path = .ok (some bytes) := by
  unfold write at h
  cases hm : (fs.makeFolder path.folder).failure with
  | some e => simp [hm] at h
  | none =>
    simp only [hm] at h
    refine read_put ?_ h
    unfold makeFolder at hm ⊢
    cases hf : fs.find path.folder with
    | error o => simp [hf] at hm
    | ok found =>
      simp only [hf] at hm ⊢
      exact follow_makeFolders hm

end Files

end SearchQuery
