import SearchQuery.Assembly
import SearchQuery.CommandLine
import SearchQuery.Settings

/-!
# Running the program

One run takes the arguments, the files and the path of the standard settings file, which stands in
where the arguments name none. It gives what is printed, how the run ends, and the files afterwards.
What is printed is text: both outputs are taken to accept every text, halves of a pair included.

**Ends.** A run ends with an exit code, or a failure leaves it. `RunError.isReported` says which
failures become a line on the error output and exit code 1; the others leave the run.

**Building.** Every qualifier is read before anything is printed. Then the query is printed as far
as its fragments render, and each fragment that does not has a line on the error output. A log of
what was left out comes first if it was asked for.

**Files.** Only `defaults set` and `defaults clear` change files, and only when they succeed; one
that fails may leave new folders.
-/

namespace SearchQuery

/-! ## Failures -/

inductive RunError where
  | settings (error : SettingsError)
  | qualifier (error : QualifierError)
  | noQualifiers
  /-- A switch for a qualifier was left without a value. -/
  | valueless
  | assembly (error : AssemblyError)

namespace RunError

def message : RunError → Text
  | settings e => e.message
  | qualifier e => e.message
  | noQualifiers => "No qualifiers given".text
  | valueless => "not enough values to unpack (expected 3, got 0)".text
  | assembly e => e.message

/-- Whether a failure is reported to the user, and does not leave the run. -/
def isReported : RunError → Bool
  | settings e => e.isConfigFault
  | qualifier _ => true
  | noQualifiers => true
  | valueless => false
  | assembly _ => false

end RunError

/-! ## Outcomes -/

inductive Ending where
  | exit (code : Nat)
  | failure (error : RunError)

structure Outcome where
  ending : Ending
  output : Text
  errors : Text
  files : Files

/-- What a command prints when it does not fail. -/
structure Done where
  code : Nat
  output : Text
  errors : Text

/-- A text and the end of its line. -/
def line (t : Text) : Text := t ++ [.char '\n']

/-- A line that reports an error. -/
def errorLine (message : Text) : Text := line ("Error: ".text ++ message)

/-- A line of the log. -/
def logLine (note : Text) : Text := line ("DEBUG ghquery.query: ".text ++ note)

/-! ## Building a query -/

/-- The fragments of qualifiers, all of them or the first failure. -/
def readFragments (timezoned : Bool) : List (Option Qualifier) → Except RunError (List Fragment)
  | [] => .ok []
  | none :: _ => .error .valueless
  | some q :: rest =>
    match q.fragment timezoned with
    | .error e => .error (.qualifier e)
    | .ok f =>
      match readFragments timezoned rest with
      | .error e => .error e
      | .ok fs => .ok (f :: fs)

/-- The qualifiers of a query: the stored ones, unless they are not wanted, then those given. -/
def qualifiersOf (s : Settings) (r : BuildRequest) : List (Option Qualifier) :=
  (if r.noDefaults then [] else s.defaults.map fun d => some ⟨d.1, d.2, false⟩) ++ r.qualifiers

/-- Prints the query of some fragments. -/
def printQuery (verbose : Bool) (fragments : List Fragment) : Except RunError Done :=
  match assemble (fragments.map .own) with
  | .error e => .error (.assembly e)
  | .ok (query, omitted) =>
    let log := if verbose then omitted.flatMap fun o => logLine o.note else []
    .ok ⟨if omitted = [] then 0 else 1, line query,
      log ++ omitted.flatMap fun o => errorLine o.error.message⟩

def runBuild (fs : Files) (path : Path) (verbose : Bool) (r : BuildRequest) :
    Except RunError Done :=
  match Settings.load fs path with
  | .error e => .error (.settings e)
  | .ok s =>
    let qualifiers := qualifiersOf s r
    if qualifiers = [] then .error .noQualifiers
    else
      match readFragments (r.timezoned || s.timezoned) qualifiers with
      | .error e => .error e
      | .ok fragments => printQuery verbose fragments

/-! ## Stored defaults -/

/-- The pairs as entries, if every key is known. -/
def readDefaults : List Qualifier → Except QualifierError (List (Text × Text))
  | [] => .ok []
  | q :: rest =>
    match Key.ofName q.key with
    | .error e => .error e
    | .ok _ =>
      match readDefaults rest with
      | .error e => .error e
      | .ok es => .ok ((q.key, q.value) :: es)

/-- The end of a command that changes settings, with a line that says so. -/
def reported (change : Change SettingsError) (report : Text) : Files × Except RunError Done :=
  match change.failure with
  | some e => (change.files, .error (.settings e))
  | none => (change.files, .ok ⟨0, line report, []⟩)

def runSet (fs : Files) (path : Path) (pairs : List Qualifier) : Files × Except RunError Done :=
  match readDefaults pairs with
  | .error e => (fs, .error (.qualifier e))
  | .ok es =>
    reported (Settings.store fs path (Entries.ofList es)) ("Defaults stored at ".text ++ path.text)

def runClear (fs : Files) (path : Path) : Files × Except RunError Done :=
  reported (Settings.clear fs path) "Stored defaults cleared.".text

/-- The lines that show settings. -/
def settingsText (s : Settings) : Text :=
  (if s.defaults = [] then line "No default qualifiers.".text
   else s.defaults.flatMap fun d => line (d.1 ++ .char '=' :: d.2))
    ++ line ("timezoned=".text ++ if s.timezoned then "yes".text else "no".text)

def runShow (fs : Files) (path : Path) : Except RunError Done :=
  match Settings.load fs path with
  | .error e => .error (.settings e)
  | .ok s => .ok ⟨0, settingsText s, []⟩

/-! ## The program -/

/-- Runs a command: the files afterwards, and what is printed or why it failed. The settings file is
the standard one if none is named. -/
def runCommand (standard : Path) (fs : Files) (r : Request) : Files × Except RunError Done :=
  let path := r.config.getD standard
  match r.command with
  | .build b => (fs, runBuild fs path r.verbose b)
  | .set pairs => runSet fs path pairs
  | .clear => runClear fs path
  | .show => (fs, runShow fs path)

/-- Runs the program on some files. -/
def run (standard : Path) (fs : Files) (args : List Text) : Outcome :=
  match CommandLine.parse args with
  | .error (.help page) => ⟨.exit 0, page.help, [], fs⟩
  | .error (.refused page fault) => ⟨.exit 2, [], page.complaint fault.message, fs⟩
  | .ok r =>
    match runCommand standard fs r with
    | (fs, .ok d) => ⟨.exit d.code, d.output, d.errors, fs⟩
    | (fs, .error e) =>
      if e.isReported then ⟨.exit 1, [], errorLine e.message, fs⟩ else ⟨.failure e, [], [], fs⟩

end SearchQuery
