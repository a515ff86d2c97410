import SearchQuery.CommandLine.Token

/-!
# What happens on a command line

The tokens of a command line are walked once from the left. A switch that takes a value takes the
word behind it; switches of one letter may be run together, and nothing of such a bundle counts
before all of it is read. Other words go to the command: one that chooses a command takes every
argument behind it, a run of operands takes the words up to the next option, and what is left
over is kept for a complaint at the end.

The result is a list of events in the order in which they happen; a fault is always the last.
Corners that the documented rules leave open are settled as in the release that the tokens follow.
-/

namespace SearchQuery

inductive Event (α : Type) where
  /-- A switch, with its value if it takes one. A joined value of two dashes is no value. -/
  | given (switch : Switch α) (value : Option Text)
  | operand (word : Text)
  /-- The name of a command and every argument behind it. -/
  | command (name : Text) (arguments : List Text)
  | leftover (argument : Text)
  | fault (fault : UsageFault)

/-- What words are to a command. -/
inductive Words where
  /-- Nothing: every word is left over. -/
  | unwanted
  /-- A run of operands that has not begun. -/
  | awaited
  /-- The run of operands. -/
  | running
  /-- The name of a command. -/
  | command
deriving DecidableEq, Repr

/-- An option ends the run of operands. -/
def Words.afterOption : Words → Words
  | .running => .unwanted
  | w => w

/-- A bundle of switches: those before the last, the last, and the value joined to it. -/
structure Bundle (α : Type) where
  before : List (Switch α)
  last : Switch α
  value : Option Text

namespace Event

variable {α : Type}

/-- Reads the letters joined to a switch that takes no value as more switches. -/
def unbundle (table : List (Switch α)) (s : Switch α) (short : Bool) :
    Text → Except UsageFault (Bundle α)
  | [] => if s.takesValue then .ok ⟨[], s, some []⟩ else .error (.unusedValue s.title [])
  | c :: rest =>
    if s.takesValue then .ok ⟨[], s, some (c :: rest)⟩
    else
      match (if short then Switch.named? table [.char '-', c] else none) with
      | none => .error (.unusedValue s.title (c :: rest))
      | some next =>
        if rest = [] then .ok ⟨[s], next, none⟩
        else
          match unbundle table next short rest with
          | .ok b => .ok { b with before := s :: b.before }
          | .error f => .error f

/-- The bundle of a switch and the value joined to it, if there is one. -/
def bundleOf (table : List (Switch α)) (s : Switch α) (short : Bool) :
    Option Text → Except UsageFault (Bundle α)
  | none => .ok ⟨[], s, none⟩
  | some value => unbundle table s short value

/-- A value joined to a switch. -/
def joinedValue (value : Text) : Option Text := if value = endMark then none else some value

/-- Walks over tokens. -/
def scan (table : List (Switch α)) : Words → List (Token α) → List (Event α)
  | _, [] => []
  | words, .unknown raw :: rest => .leftover raw :: scan table words.afterOption rest
  | .command, .word w :: rest => [.command w (rest.map Token.raw)]
  | .unwanted, .word w :: rest => .leftover w :: scan table .unwanted rest
  | .awaited, .word w :: rest => .operand w :: scan table .running rest
  | .running, .word w :: rest => .operand w :: scan table .running rest
  | .command, .mark :: rest =>
    if rest.isEmpty then [.leftover endMark] else [.command endMark (rest.map Token.raw)]
  | .unwanted, .mark :: rest => .leftover endMark :: scan table .unwanted rest
  | .awaited, .mark :: rest =>
    if rest.isEmpty then [.leftover endMark] else scan table .running rest
  | .running, .mark :: rest => scan table .running rest
  | words, .switch _ s short value :: rest =>
    match bundleOf table s short value with
    | .error f => [.fault f]
    | .ok b =>
      let before := b.before.map fun s => Event.given s none
      match b.value with
      | some v => before ++ .given b.last (joinedValue v) :: scan table words.afterOption rest
      | none =>
        if b.last.takesValue then
          match rest with
          | .word w :: rest => before ++ .given b.last (some w) :: scan table words.afterOption rest
          | _ => [.fault (.missingValue b.last.title)]
        else before ++ .given b.last none :: scan table words.afterOption rest

/-- The events of a command line. What an argument is does not depend on those before it, so an
ambiguous option is found before anything else happens. -/
def ofArguments (table : List (Switch α)) (words : Words) (args : List Text) : List (Event α) :=
  match Token.ofArguments table args with
  | .error f => [.fault f]
  | .ok tokens => scan table words tokens

end Event

end SearchQuery
