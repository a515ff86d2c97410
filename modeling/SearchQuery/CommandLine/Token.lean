import SearchQuery.Qualifier
import SearchQuery.Text.DecimalDigit

/-!
# Words and options of a command line

Each command knows a table of switches. An argument is looked at before any of them takes effect:
it is the name of a switch, perhaps with a value joined to it, or an unknown option, or a word.

**Names.** A long name may be cut short where only one switch begins that way, and takes its joined
value behind a sign of equality. A short name takes it directly behind, or behind the sign.

**Words.** What does not start with a dash is a word; so are a lone dash, a negative number, and an
argument with a space that is no switch. After the mark of two dashes there are only words.

Where the documented rules leave a corner open, this and the walk over the tokens are what the
argument reader of release 3.11.8 does. Later ones differ: they leave over the letters behind a
switch that are no switches (`-hx`), and take two dashes joined to a switch as its value (`-Q--`).
-/

namespace SearchQuery

/-! ## Switches -/

/-- An option of a command; `meaning` is what it stands for there. -/
structure Switch (α : Type) where
  /-- The names in the order in which they are listed. -/
  names : List Text
  takesValue : Bool
  meaning : α

namespace Switch

variable {α : Type}

/-- The switch as messages name it. -/
def title (s : Switch α) : Text := joined [.char '/'] s.names

/-- Every name of a table with its switch. -/
def entries (table : List (Switch α)) : List (Text × Switch α) :=
  table.flatMap fun s => s.names.map fun n => (n, s)

/-- The switch with a name. -/
def named? (table : List (Switch α)) (name : Text) : Option (Switch α) :=
  ((entries table).find? fun e => e.1 == name).map (·.2)

end Switch

/-! ## What is wrong with a command line -/

inductive UsageFault where
  /-- An option that several names begin with. -/
  | ambiguous (option : Text) (names : List Text)
  | missingValue (title : Text)
  /-- A value joined to a switch that takes none. -/
  | unusedValue (title value : Text)
  | invalidValue (title : Text) (error : PairError)
  | invalidChoice (title word : Text) (choices : List Text)
  | required (title : Text)
  | unrecognized (arguments : List Text)
deriving DecidableEq, Repr

namespace UsageFault

/-- A message about one argument. -/
def about (title message : Text) : Text := "argument ".text ++ title ++ ": ".text ++ message

def message : UsageFault → Text
  | ambiguous option names =>
    "ambiguous option: ".text ++ option ++ " could match ".text ++ joined ", ".text names
  | missingValue title => about title "expected one argument".text
  | unusedValue title value => about title ("ignored explicit argument ".text ++ quoted value)
  | invalidValue title e => about title e.message
  | invalidChoice title word choices =>
    about title ("invalid choice: ".text ++ quoted word ++ " (choose from ".text
      ++ joined ", ".text (choices.map quoted) ++ [.char ')'])
  | required title => "the following arguments are required: ".text ++ title
  | unrecognized arguments => "unrecognized arguments: ".text ++ joined [.char ' '] arguments

end UsageFault

/-! ## Tokens -/

inductive Token (α : Type) where
  | word (raw : Text)
  /-- A switch, whether it goes by a short name, and the value joined to it. -/
  | switch (raw : Text) (switch : Switch α) (short : Bool) (joinedValue : Option Text)
  | unknown (raw : Text)
  /-- The two dashes after which there are only words. -/
  | mark

/-- The mark that ends the options. -/
def endMark : Text := [.char '-', .char '-']

namespace Token

variable {α : Type}

/-- The argument that a token was. -/
def raw : Token α → Text
  | word raw => raw
  | switch raw _ _ _ => raw
  | unknown raw => raw
  | mark => endMark

/-- A dash and decimal digits, with a point among them or none: a negative number. A line feed may
follow. -/
def isNegativeNumber : Text → Bool
  | .char '-' :: t =>
    let t := if t.getLast? = some '\n' then t.dropLast else t
    match cutAt '.' t with
    | none => t ≠ [] && t.all isDecimalDigit
    | some (whole, places) => whole.all isDecimalDigit && places ≠ [] && places.all isDecimalDigit
  | _ => false

/-- Whether a name has one dash only. -/
def isShort : Text → Bool
  | .char '-' :: .char '-' :: _ => false
  | _ => true

/-- A switch that an argument may mean: its name, the switch, and the value joined to it. -/
abbrev Candidate (α : Type) := Text × Switch α × Option Text

/-- The switches that an argument with two dashes may mean: those whose name begins like it. -/
def longCandidates (table : List (Switch α)) (arg : Text) : List (Candidate α) :=
  let (name, value) :=
    match cutAt '=' arg with
    | some (name, value) => (name, some value)
    | none => (arg, none)
  (Switch.entries table).filterMap fun e =>
    if name.isPrefixOf e.1 then some (e.1, e.2, value) else none

/-- The switches that an argument with one dash may mean: the one of its first letter, with the
rest as its value, and those whose name begins like it. -/
def shortCandidates (table : List (Switch α)) (arg : Text) : List (Candidate α) :=
  (Switch.entries table).filterMap fun e =>
    if e.1 = arg.take 2 then some (e.1, e.2, some (arg.drop 2))
    else if arg.isPrefixOf e.1 then some (e.1, e.2, none)
    else none

/-- The switch whose full name stands before the first sign of equality. -/
def byName? (table : List (Switch α)) (arg : Text) : Option (Candidate α) :=
  match Switch.named? table arg with
  | some s => some (arg, s, none)
  | none =>
    (cutAt '=' arg).bind fun p => (Switch.named? table p.1).map fun s => (p.1, s, some p.2)

/-- What an argument other than the mark is. -/
def ofArgument (table : List (Switch α)) (arg : Text) : Except UsageFault (Token α) :=
  match arg with
  | .char '-' :: rest =>
    if rest = [] then .ok (.word arg)
    else
      match byName? table arg with
      | some (name, s, value) => .ok (.switch arg s (isShort name) value)
      | none =>
        match (if isShort arg then shortCandidates table arg else longCandidates table arg) with
        | [(name, s, value)] => .ok (.switch arg s (isShort name) value)
        | [] =>
          if isNegativeNumber arg || arg.contains ' ' then .ok (.word arg) else .ok (.unknown arg)
        | several => .error (.ambiguous arg (several.map (·.1)))
  | _ => .ok (.word arg)

/-- The tokens of a command line. -/
def ofArguments (table : List (Switch α)) : List Text → Except UsageFault (List (Token α))
  | [] => .ok []
  | arg :: rest =>
    if arg = endMark then .ok (.mark :: rest.map .word)
    else
      match ofArgument table arg with
      | .error f => .error f
      | .ok t =>
        match ofArguments table rest with
        | .error f => .error f
        | .ok ts => .ok (t :: ts)

/-- An argument that does not start with a dash is a word. -/
theorem ofArgument_of_head {table : List (Switch α)} {arg : Text} (h : arg.head? ≠ some '-') :
    ofArgument table arg = .ok (.word arg) := by
  unfold ofArgument
  split
  · simp at h
  · rfl

end Token

end SearchQuery
