import SearchQuery.Files
import SearchQuery.Json.Printer
import SearchQuery.Json.Reader
import SearchQuery.Utf8

/-!
# Settings

A settings file holds a JSON object. Its member `defaults` has the qualifiers that every query
starts with, and `timezoned` says whether dates are written with their time. All other members
are kept as they are.

**Reading.** `Settings.load` strips the keys and values of the defaults; a blank key is dropped, and
of several spellings of one key the last gives the value and the first the place. A file that does
not exist is like an empty object, and empty `defaults` of any kind are none.

**Writing.** `Settings.store` merges qualifiers into the defaults and `Settings.clear` removes the
defaults; a file that would hold nothing is removed. Both read before they write, so they fail where
reading fails, and a failure leaves every file as it was. It may leave new folders, when a path
leads through folders that do not exist to a place where no file can be.
-/

namespace SearchQuery

/-- Why settings are not read or written. -/
inductive SettingsError where
  | unusable (error : FileError)
  | undecodable (fault : Utf8.Fault)
  | longInteger (digits : Nat)
  | tooDeep (container : Container)
  | notJson (path : Path)
  | notObject (path : Path)
  | defaultsNotObject (path : Path)
  | timezonedNotBool (path : Path) (value : Json)
  /-- There is nothing to store. -/
  | nothingGiven

namespace SettingsError

def message : SettingsError → Text
  | unusable e => e.message
  | undecodable f => f.message
  | longInteger n =>
    "Exceeds the limit (".text ++ natural Json.digitLimit
      ++ " digits) for integer string conversion: value has ".text ++ natural n
      ++ " digits; use sys.set_int_max_str_digits() to increase the limit".text
  | tooDeep c =>
    "maximum recursion depth exceeded while decoding a JSON ".text
      ++ (match c with
        | .array => "array".text
        | .object => "object".text)
      ++ " from a unicode string".text
  | notJson p => "Config file at ".text ++ p.text ++ " is not valid JSON".text
  | notObject p => "Config file at ".text ++ p.text ++ " must contain a JSON object".text
  | defaultsNotObject p => "'defaults' in ".text ++ p.text ++ " must be an object".text
  | timezonedNotBool p v =>
    "'timezoned' in ".text ++ p.text ++ " must be true or false, not ".text ++ v.display
  | nothingGiven => "No default qualifiers given".text

/-- Whether the failure is one of the file as a document, and not of its path or bytes, of the size
of a number or of an empty request. -/
def isConfigFault : SettingsError → Bool
  | unusable _ => false
  | undecodable _ => false
  | longInteger _ => false
  | nothingGiven => false
  | _ => true

end SettingsError

structure Settings where
  defaults : Entries Text Text
  timezoned : Bool
deriving DecidableEq, Repr

namespace Settings

def defaultsKey : Text := "defaults".text

def timezonedKey : Text := "timezoned".text

/-! ## The members of the file -/

/-- The members that a file's bytes spell. -/
def membersOfBytes (path : Path) (bytes : Bytes) : Except SettingsError (Entries Text Json) :=
  match Utf8.decode bytes with
  | .error f => .error (.undecodable f)
  | .ok t =>
    match Json.read (unifyNewlines t) with
    | .error .malformed => .error (.notJson path)
    | .error (.longInteger n) => .error (.longInteger n)
    | .error (.tooDeep c) => .error (.tooDeep c)
    | .ok (.object ms) => .ok ms
    | .ok _ => .error (.notObject path)

/-- The members of the settings file, none when there is no file. -/
def members (fs : Files) (path : Path) : Except SettingsError (Entries Text Json) :=
  match fs.read path with
  | .error e => .error (.unusable e)
  | .ok none => .ok []
  | .ok (some bytes) => membersOfBytes path bytes

/-- Puts members into the settings file; without members there is no file. -/
def save (fs : Files) (path : Path) (ms : Entries Text Json) : Change SettingsError :=
  let change :=
    if ms = [] then fs.remove path else fs.write path (Utf8.encode (Json.document ms))
  ⟨change.files, change.failure.map .unusable⟩

/-- The defaults as they are stored. -/
def storedDefaults (path : Path) (ms : Entries Text Json) :
    Except SettingsError (Entries Text Json) :=
  match ms.find? defaultsKey with
  | none => .ok []
  | some (.object ds) => .ok ds
  | some v => if v.isEmpty then .ok [] else .error (.defaultsNotObject path)

def storedTimezoned (path : Path) (ms : Entries Text Json) : Except SettingsError Bool :=
  match ms.find? timezonedKey with
  | none => .ok false
  | some (.bool b) => .ok b
  | some v => .error (.timezonedNotBool path v)

/-- The defaults as queries take them: keys and values as texts without blanks around them. -/
def normalized (stored : Entries Text Json) : Entries Text Text :=
  Entries.ofList ((stored.filter fun e => trim e.1 ≠ []).map fun e => (trim e.1, trim e.2.plain))

/-! ## Operations -/

def load (fs : Files) (path : Path) : Except SettingsError Settings :=
  match members fs path with
  | .error e => .error e
  | .ok ms =>
    match storedDefaults path ms with
    | .error e => .error e
    | .ok ds =>
      match storedTimezoned path ms with
      | .error e => .error e
      | .ok z => .ok ⟨normalized ds, z⟩

/-- The members with qualifiers merged into the stored defaults. -/
def withDefaults (path : Path) (ms : Entries Text Json) (defaults : Entries Text Text) :
    Except SettingsError (Entries Text Json) :=
  match storedDefaults path ms with
  | .error e => .error e
  | .ok ds =>
    let merged := ds.merge (defaults.map fun d => (d.1, Json.string d.2))
    .ok (ms.put defaultsKey (.object merged))

/-- Merges qualifiers into the stored defaults. -/
def store (fs : Files) (path : Path) (defaults : Entries Text Text) : Change SettingsError :=
  if defaults = [] then ⟨fs, some .nothingGiven⟩
  else
    match members fs path with
    | .error e => ⟨fs, some e⟩
    | .ok ms =>
      match withDefaults path ms defaults with
      | .error e => ⟨fs, some e⟩
      | .ok ms => save fs path ms

/-- Removes the stored defaults. A member that is null is left where it is. -/
def clear (fs : Files) (path : Path) : Change SettingsError :=
  match members fs path with
  | .error e => ⟨fs, some e⟩
  | .ok ms =>
    match ms.find? defaultsKey with
    | none => ⟨fs, none⟩
    | some .null => ⟨fs, none⟩
    | some _ => save fs path (ms.erase defaultsKey)

end Settings

end SearchQuery
