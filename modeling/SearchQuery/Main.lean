import SearchQuery.Run

/-!
# The program

Runs the command line on the settings file that the arguments name: looks at what its path leads
through, and afterwards makes the folders and writes, or removes, the file that the run changed.
-/

namespace SearchQuery

/-- What a path leads to; a file that cannot be read is like none. -/
def observe (path : Path) : IO Found := do
  let p := (← IO.currentDir) / path.text.shown
  if ← p.isDir then return .folder
  try
    let bytes ← IO.FS.readBinFile p
    return .file bytes.toList
  catch _ => return .nothing

/-- The files and folders that a path leads through. -/
def observeFiles (path : Path) : IO Files := do
  let mut fs := Files.empty
  for n in List.range (path.parts.length + 1) do
    let p := { path with parts := path.parts.take n }
    match ← observe p with
    | .folder => fs := { fs with folders := fs.folders ++ [p.place] }
    | .file bytes => fs := { fs with contents := fs.contents.put p.place bytes }
    | .nothing => pure ()
  return fs

/-- Makes the folders that a run made, and brings the file of a path to the state it leaves. -/
def carryOut (path : Path) (before after : Files) : IO Unit := do
  for p in after.folders do
    unless before.isFolder p do IO.FS.createDirAll p.path.text.shown
  let bytes := after.contents.find? path.place
  if bytes ≠ before.contents.find? path.place then
    match bytes with
    | some bytes => IO.FS.writeBinFile path.text.shown ⟨bytes.toArray⟩
    | none => IO.FS.removeFile path.text.shown

/-- The settings file of a run that names none: as the environment says, or in the home folder. -/
def standardPath : IO Path := do
  let given := (← IO.getEnv "GHQUERY_CONFIG").getD "~/.config/ghquery/config.json"
  let home := (← IO.getEnv "HOME").getD "~"
  match given.toList with
  | '~' :: '/' :: rest => return .ofText (home ++ "/" ++ .ofList rest).text
  | _ => return .ofText given.text

/-- The settings file that the arguments name, or the standard one. -/
def settingsPath (standard : Path) (args : List Text) : Path :=
  match CommandLine.parse args with
  | .ok r => r.config.getD standard
  | .error _ => standard

end SearchQuery

open SearchQuery in
def main (args : List String) : IO UInt32 := do
  let args := args.map String.text
  let standard ← standardPath
  let path := settingsPath standard args
  let files ← observeFiles path
  let outcome := run standard files args
  carryOut path files outcome.files
  IO.print outcome.output.shown
  IO.eprint outcome.errors.shown
  match outcome.ending with
  | .exit code => return code.toUInt32
  | .failure e =>
    IO.eprint (line e.message).shown
    return 1
