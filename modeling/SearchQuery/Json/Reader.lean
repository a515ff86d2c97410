import SearchQuery.Json

/-!
# Reading JSON

The grammar of JSON with three words more, `NaN`, `Infinity` and `-Infinity`. Blanks are space,
tab, line feed and carriage return. Control characters may not stand in a string as they are. A
later member of an object takes the place of an earlier one of the same key.

**Halves.** An escape by number may spell a half. A leading half and the trailing half behind it are
one character, and any other half is kept; `joinHalves_char` says that characters are left as they
are.

**Failures.** A text is malformed, or a whole number has more digits than are read, or arrays and
objects stand deeper inside each other than are read. The first failure in the order of the text is
the one reported.
-/

namespace SearchQuery

/-- What other values stand in. -/
inductive Container where
  | array
  | object
deriving DecidableEq, Repr

/-- Why a text is not read as a value. -/
inductive JsonError where
  | malformed
  /-- A whole number with so many digits, more than the limit. -/
  | longInteger (digits : Nat)
  /-- A container that stands inside as many others as there may be. -/
  | tooDeep (container : Container)
deriving DecidableEq, Repr

namespace Json

/-- The most digits that a whole number may have. -/
def digitLimit : Nat := 4300

/-- The most containers that may stand inside each other: what an interpreter that allows a thousand
calls inside each other has left for them where the settings are read. It is fewer where that is
done from deeper inside. -/
def depthLimit : Nat := 988

/-! ## Strings -/

def hexValue? : CodePoint → Option Nat
  | .char c =>
    if c.isDigit then some (c.toNat - '0'.toNat)
    else if 'a' ≤ c ∧ c ≤ 'f' then some (c.toNat - 'a'.toNat + 10)
    else if 'A' ≤ c ∧ c ≤ 'F' then some (c.toNat - 'A'.toNat + 10)
    else none
  | .half _ => none

/-- The number that four digits to base sixteen spell. -/
def hex4? (a b c d : CodePoint) : Option Nat := do
  let a ← hexValue? a
  let b ← hexValue? b
  let c ← hexValue? c
  let d ← hexValue? d
  return ((a * 16 + b) * 16 + c) * 16 + d

/-- The character that a letter behind a backslash stands for. -/
def unescape? : CodePoint → Option CodePoint
  | .char '"' => some '"'
  | .char '\\' => some '\\'
  | .char '/' => some '/'
  | .char 'n' => some '\n'
  | .char 'r' => some '\r'
  | .char 't' => some '\t'
  | .char 'f' => some '\x0c'
  | .char 'b' => some '\x08'
  | _ => none

/-- Reads a string behind its opening quote, up to and with the closing quote. An escape by number
is one code point, so a character above U+FFFF is two halves here. -/
def readPoints : Text → Option (Text × Text)
  | [] => none
  | .char '"' :: rest => some ([], rest)
  | .char '\\' :: .char 'u' :: a :: b :: c :: d :: rest => do
    let n ← hex4? a b c d
    let (points, rest) ← readPoints rest
    return (.ofNat n :: points, rest)
  | .char '\\' :: l :: rest => do
    let c ← unescape? l
    let (points, rest) ← readPoints rest
    return (c :: points, rest)
  | c :: rest =>
    if c.toNat < 0x20 ∨ c = .char '\\' then none
    else do
      let (points, rest) ← readPoints rest
      return (c :: points, rest)

/-- Makes two neighbouring halves one character where the first leads and the second trails. A half
without its neighbour stays. -/
def joinHalves : Text → Text
  | .half n :: .half m :: rest =>
    if n.val < 0x400 ∧ 0x400 ≤ m.val then
      .char (Char.ofNat (0x10000 + n.val * 0x400 + (m.val - 0x400))) :: joinHalves rest
    else .half n :: joinHalves (.half m :: rest)
  | c :: rest => c :: joinHalves rest
  | [] => []

/-- Reads a string behind its opening quote. -/
def readString (t : Text) : Option (Text × Text) :=
  (readPoints t).map fun p => (joinHalves p.1, p.2)

/-- Characters are joined with nothing. -/
theorem joinHalves_char (c : Char) (t : Text) :
    joinHalves (.char c :: t) = .char c :: joinHalves t := by
  rw [joinHalves]
  simp

/-! ## Numbers -/

/-- Reads the digits of a whole number: a zero, or digits that do not start with one. -/
def readWhole : Text → Option (Text × Text)
  | .char '0' :: rest => some ([.char '0'], rest)
  | c :: rest =>
    if c.isDigit then some (c :: rest.takeWhile CodePoint.isDigit, rest.dropWhile CodePoint.isDigit)
    else none
  | [] => none

/-- Reads a point and at least one digit, if they follow. -/
def readFraction : Text → Option (Text × Text)
  | .char '.' :: rest =>
    let digits := rest.takeWhile CodePoint.isDigit
    if digits = [] then none else some (digits, rest.dropWhile CodePoint.isDigit)
  | _ => none

/-- Takes a sign away; whether it was a minus. -/
def readSign : Text → Bool × Text
  | .char '-' :: rest => (true, rest)
  | .char '+' :: rest => (false, rest)
  | rest => (false, rest)

/-- Reads an exponent with at least one digit, if it follows. -/
def readExponent : Text → Option (Int × Text)
  | c :: rest =>
    if c = 'e' ∨ c = 'E' then
      let (negative, rest) := readSign rest
      let digits := rest.takeWhile CodePoint.isDigit
      let size : Int := ofDigits digits
      if digits = [] then none
      else some (if negative then -size else size, rest.dropWhile CodePoint.isDigit)
    else none
  | [] => none

/-- Reads a number without its sign. -/
def readUnsigned (negative : Bool) (t : Text) : Except JsonError (Json × Text) :=
  match readWhole t with
  | none => .error .malformed
  | some (whole, rest) =>
    let fraction := readFraction rest
    let (places, rest) := fraction.getD ([], rest)
    let exponent := readExponent rest
    let (power, rest) := exponent.getD (0, rest)
    if fraction.isNone ∧ exponent.isNone then
      if digitLimit < whole.length then .error (.longInteger whole.length)
      else
        let size : Int := ofDigits whole
        .ok (.int (if negative then -size else size), rest)
    else
      .ok (.float (.nearest negative (ofDigits (whole ++ places)) (power - places.length)), rest)

/-! ## Values -/

def isJsonBlank (c : CodePoint) : Bool := c = ' ' || c = '\t' || c = '\n' || c = '\r'

def skipBlanks (t : Text) : Text := t.dropWhile isJsonBlank

/-- Takes a word away from the front of a text. -/
def skipWord (word t : Text) : Option Text :=
  if word.isPrefixOf t then some (t.drop word.length) else none

/-- The words that are values, with the values. -/
def words : List (Text × Json) :=
  [("null".text, .null), ("true".text, .bool true), ("false".text, .bool false),
   ("NaN".text, .float .nan), ("Infinity".text, .float (.infinite false)),
   ("-Infinity".text, .float (.infinite true))]

/-- Reads a word or a number. -/
def readScalar (t : Text) : Except JsonError (Json × Text) :=
  match words.findSome? fun w => (skipWord w.1 t).map fun rest => (w.2, rest) with
  | some p => .ok p
  | none =>
    match t with
    | .char '-' :: rest => readUnsigned true rest
    | _ => readUnsigned false t

mutual

/-- Reads a value at the front of a text, with so many containers at most inside each other. The
second argument bounds the depth of the calls; twice the length of the text is always enough, since
two calls inside take a character away. -/
def readValue (depth : Nat) : Nat → Text → Except JsonError (Json × Text)
  | 0, _ => .error .malformed
  | fuel + 1, t =>
    match t with
    | .char '"' :: rest =>
      match readString rest with
      | some (s, rest) => .ok (.string s, rest)
      | none => .error .malformed
    | .char '[' :: rest =>
      match depth with
      | 0 => .error (.tooDeep .array)
      | depth + 1 =>
        match skipBlanks rest with
        | .char ']' :: rest => .ok (.array [], rest)
        | rest =>
          match readElements depth fuel rest with
          | .ok (xs, rest) => .ok (.array xs, rest)
          | .error e => .error e
    | .char '\x7b' :: rest =>
      match depth with
      | 0 => .error (.tooDeep .object)
      | depth + 1 =>
        match skipBlanks rest with
        | .char '\x7d' :: rest => .ok (.object [], rest)
        | rest =>
          match readMembers depth fuel rest with
          | .ok (ms, rest) => .ok (.object (Entries.ofList ms), rest)
          | .error e => .error e
    | t => readScalar t

/-- Reads the elements of an array up to and with its closing bracket. -/
def readElements (depth : Nat) : Nat → Text → Except JsonError (List Json × Text)
  | 0, _ => .error .malformed
  | fuel + 1, t =>
    match readValue depth fuel t with
    | .error e => .error e
    | .ok (x, rest) =>
      match skipBlanks rest with
      | .char ']' :: rest => .ok ([x], rest)
      | .char ',' :: rest =>
        match readElements depth fuel (skipBlanks rest) with
        | .ok (xs, rest) => .ok (x :: xs, rest)
        | .error e => .error e
      | _ => .error .malformed

/-- Reads the members of an object up to and with its closing brace. -/
def readMembers (depth : Nat) : Nat → Text → Except JsonError (List (Text × Json) × Text)
  | 0, _ => .error .malformed
  | fuel + 1, t =>
    match t with
    | .char '"' :: rest =>
      match readString rest with
      | none => .error .malformed
      | some (k, rest) =>
        match skipBlanks rest with
        | .char ':' :: rest =>
          match readValue depth fuel (skipBlanks rest) with
          | .error e => .error e
          | .ok (x, rest) =>
            match skipBlanks rest with
            | .char '\x7d' :: rest => .ok ([(k, x)], rest)
            | .char ',' :: rest =>
              match readMembers depth fuel (skipBlanks rest) with
              | .ok (ms, rest) => .ok ((k, x) :: ms, rest)
              | .error e => .error e
            | _ => .error .malformed
        | _ => .error .malformed
    | _ => .error .malformed

end

/-- Reads a whole text as one value between blanks. -/
def read (t : Text) : Except JsonError Json :=
  match readValue depthLimit (2 * t.length + 1) (skipBlanks t) with
  | .error e => .error e
  | .ok (v, rest) => if skipBlanks rest = [] then .ok v else .error .malformed

end Json

end SearchQuery
