import SearchQuery.CommandLine.Event
import SearchQuery.CommandLine.Page
import SearchQuery.Path

/-!
# The command line

Reads the arguments of the program into a request: a settings file, whether to log, and a command.

**Commands.** `build` prints a query and takes its qualifiers from switches; `defaults set`,
`defaults clear` and `defaults show` keep the stored qualifiers.

**Order.** Events take effect in their order, so a page of help wins over a fault behind it. What
is left over is complained about last, by the program as a whole.
-/

namespace SearchQuery

/-! ## Requests -/

structure BuildRequest where
  /-- The qualifiers in order; nothing stands for a switch with the mark of two dashes joined to it,
  which leaves it without a value. -/
  qualifiers : List (Option Qualifier)
  timezoned : Bool
  noDefaults : Bool
deriving DecidableEq, Repr

inductive Command where
  | build (request : BuildRequest)
  | set (pairs : List Qualifier)
  | clear
  | show
deriving DecidableEq, Repr

structure Request where
  config : Option Path
  verbose : Bool
  command : Command
deriving DecidableEq, Repr

/-- Why reading the arguments ends the program. -/
inductive Stop where
  | help (page : Page)
  | refused (page : Page) (fault : UsageFault)
deriving DecidableEq, Repr

/-- What a command reads, and what it leaves over. -/
abbrev Reading (α : Type) := Except Stop (α × List Text)

namespace CommandLine

/-! ## Switches -/

inductive TopSwitch where
  | help
  | config
  | verbose
deriving DecidableEq, Repr

inductive BuildSwitch where
  | help
  | text
  | qualifier
  | exclude
  | timezoned
  | noDefaults
deriving DecidableEq, Repr

/-- The switch for help, which every command has. -/
def helpSwitch {α : Type} (meaning : α) : Switch α :=
  ⟨["-h".text, "--help".text], false, meaning⟩

def topSwitches : List (Switch TopSwitch) :=
  [helpSwitch .help,
   ⟨["--config".text], true, .config⟩,
   ⟨["-v".text, "--verbose".text], false, .verbose⟩]

def buildSwitches : List (Switch BuildSwitch) :=
  [helpSwitch .help,
   ⟨["-t".text, "--text".text], true, .text⟩,
   ⟨["-Q".text, "--qualifier".text], true, .qualifier⟩,
   ⟨["-X".text, "--exclude".text], true, .exclude⟩,
   ⟨["--timezoned".text], false, .timezoned⟩,
   ⟨["--no-defaults".text], false, .noDefaults⟩]

/-- The switches of a command that has no switch but the one for help. -/
def plainSwitches : List (Switch Unit) := [helpSwitch ()]

/-! ## Building -/

/-- A qualifier that a switch gives. -/
def readPair (page : Page) (title : Text) (excluded : Bool) (raw : Text) : Except Stop Qualifier :=
  match Qualifier.read raw excluded with
  | .ok q => .ok q
  | .error e => .error (.refused page (.invalidValue title e))

/-- The qualifier of a switch with a value, or with none. -/
def readSwitchValue (read : Text → Except Stop Qualifier) :
    Option Text → Except Stop (Option Qualifier)
  | none => .ok none
  | some v => (read v).map some

def BuildRequest.add (r : BuildRequest) (q : Option Qualifier) : BuildRequest :=
  { r with qualifiers := r.qualifiers ++ [q] }

/-- The effect of a switch of `build`. -/
def giveBuild (r : BuildRequest) (s : Switch BuildSwitch) (value : Option Text) :
    Except Stop BuildRequest :=
  match s.meaning with
  | .help => .error (.help .build)
  | .text => .ok (BuildRequest.add r (value.map fun v => ⟨Key.text.name, v, false⟩))
  | .qualifier =>
    (readSwitchValue (readPair .build s.title false) value).map (BuildRequest.add r)
  | .exclude =>
    (readSwitchValue (readPair .build s.title true) value).map (BuildRequest.add r)
  | .timezoned => .ok { r with timezoned := true }
  | .noDefaults => .ok { r with noDefaults := true }

/-- Lets the events of `build` take effect. -/
def readBuild (r : BuildRequest) (left : List Text) :
    List (Event BuildSwitch) → Reading BuildRequest
  | [] => .ok (r, left)
  | .given s value :: rest =>
    match giveBuild r s value with
    | .ok r => readBuild r left rest
    | .error stop => .error stop
  | .leftover t :: rest => readBuild r (left ++ [t]) rest
  | .operand t :: rest => readBuild r (left ++ [t]) rest
  | .command t _ :: rest => readBuild r (left ++ [t]) rest
  | .fault f :: _ => .error (.refused .build f)

def build (args : List Text) : Reading Command :=
  (readBuild ⟨[], false, false⟩ [] (Event.ofArguments buildSwitches .unwanted args)).map
    fun p => (.build p.1, p.2)

/-! ## Defaults -/

/-- Lets the events of a command without switches take effect, with operands read as pairs. -/
def readPairs (page : Page) (pairs : List Qualifier) (left : List Text) :
    List (Event Unit) → Reading (List Qualifier)
  | [] => .ok (pairs, left)
  | .given _ _ :: _ => .error (.help page)
  | .operand t :: rest =>
    match readPair page "key=value".text false t with
    | .ok q => readPairs page (pairs ++ [q]) left rest
    | .error stop => .error stop
  | .leftover t :: rest => readPairs page pairs (left ++ [t]) rest
  | .command t _ :: rest => readPairs page pairs (left ++ [t]) rest
  | .fault f :: _ => .error (.refused page f)

def set (args : List Text) : Reading Command :=
  match readPairs .set [] [] (Event.ofArguments plainSwitches .awaited args) with
  | .error stop => .error stop
  | .ok ([], _) => .error (.refused .set (.required "key=value".text))
  | .ok (pairs, left) => .ok (.set pairs, left)

/-- A command that takes no arguments. -/
def bare (page : Page) (command : Command) (args : List Text) : Reading Command :=
  (readPairs page [] [] (Event.ofArguments plainSwitches .unwanted args)).map
    fun p => (command, p.2)

/-- The choice among commands by name. -/
def choose (page : Page) (title : Text) (choices : List (Text × (List Text → Reading Command)))
    (name : Text) (args : List Text) : Reading Command :=
  match choices.lookup name with
  | some read => read args
  | none => .error (.refused page (.invalidChoice title name (choices.map (·.1))))

/-- Lets the events in front of a command below `defaults` take effect. -/
def readDefaults (left : List Text) : List (Event Unit) → Reading Command
  | [] => .error (.refused .defaults (.required "subcommand".text))
  | .given _ _ :: _ => .error (.help .defaults)
  | .command name args :: _ =>
    (choose .defaults "subcommand".text
      [("set".text, set), ("clear".text, bare .clear .clear), ("show".text, bare .show .show)]
      name args).map fun p => (p.1, left ++ p.2)
  | .leftover t :: rest => readDefaults (left ++ [t]) rest
  | .operand t :: rest => readDefaults (left ++ [t]) rest
  | .fault f :: _ => .error (.refused .defaults f)

def defaults (args : List Text) : Reading Command :=
  readDefaults [] (Event.ofArguments plainSwitches .command args)

/-! ## The program -/

/-- Lets the events in front of the command take effect, then those of the command. -/
def readTop (config : Option Path) (verbose : Bool) (left : List Text) :
    List (Event TopSwitch) → Reading Request
  | [] => .error (.refused .top (.required "command".text))
  | .given s value :: rest =>
    match s.meaning with
    | .help => .error (.help .top)
    | .config => readTop (value.map Path.ofText) verbose left rest
    | .verbose => readTop config true left rest
  | .command name args :: _ =>
    (choose .top "command".text [("build".text, build), ("defaults".text, defaults)]
      name args).map fun p => (⟨config, verbose, p.1⟩, left ++ p.2)
  | .leftover t :: rest => readTop config verbose (left ++ [t]) rest
  | .operand t :: rest => readTop config verbose (left ++ [t]) rest
  | .fault f :: _ => .error (.refused .top f)

/-- Reads the arguments of the program. -/
def parse (args : List Text) : Except Stop Request :=
  match readTop none false [] (Event.ofArguments topSwitches .command args) with
  | .error stop => .error stop
  | .ok (request, []) => .ok request
  | .ok (_, left) => .error (.refused .top (.unrecognized left))

end CommandLine

end SearchQuery
