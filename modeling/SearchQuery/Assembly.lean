import SearchQuery.Fragment

/-!
# Assembling a query

The items of a query are rendered in order, each followed by a space. An item that fails with a
query error is left out, and its error is kept together with its position; any other failure ends
the assembly.

**Results.** A result is the query text and, when something was left out, a group of errors. The
group answers membership questions: about one of its error objects, by identity, or about classes
of errors, by what the group and its errors are.

**Identity.** Error objects are told apart by serial numbers drawn from a supply, since two of
them may carry the same error.
-/

namespace SearchQuery

/-! ## Rendering every item -/

/-- Why an assembly ends without a result. -/
inductive AssemblyError where
  | render (error : RenderError)
  /-- An item to be left out tells no kind. -/
  | missingKind
deriving DecidableEq, Repr

def AssemblyError.message : AssemblyError → Text
  | .render e => e.message
  | .missingKind => "'NoneType' object has no attribute 'value'".text

/-- An item that was left out. -/
structure Omission where
  index : Nat
  kind : Kind
  error : QueryError
deriving DecidableEq, Repr

/-- The text of the items that render and the list of those left out, counted from `index`. -/
def assembleFrom (index : Nat) : List Item → Except AssemblyError (Text × List Omission)
  | [] => .ok ([], [])
  | item :: rest =>
    match item.render with
    | .ok t =>
      match assembleFrom (index + 1) rest with
      | .ok (query, omitted) => .ok (t ++ .char ' ' :: query, omitted)
      | .error e => .error e
    | .error (.query e) =>
      match item.kind with
      | none => .error .missingKind
      | some kind =>
        match assembleFrom (index + 1) rest with
        | .ok (query, omitted) => .ok (query, ⟨index, kind, e⟩ :: omitted)
        | .error e => .error e
    | .error e => .error (.render e)

/-- The text of a query and what was left out of it. -/
def assemble (items : List Item) : Except AssemblyError (Text × List Omission) :=
  assembleFrom 0 items

/-- The note about an item that was left out. -/
def Omission.note (o : Omission) : Text :=
  "Skipping ".text ++ o.kind.name ++ " fragment ".text ++ natural o.index ++ ": ".text
    ++ o.error.message

/-! ## Groups of errors -/

/-- An error object: an error and the serial number that tells it from its copies. -/
structure Raised where
  serial : Nat
  error : QueryError
deriving DecidableEq, Repr

structure Failure where
  index : Int
  raised : Raised
deriving DecidableEq, Repr

/-- All failures of one assembly; the group is an error object itself, made after its errors. -/
structure ErrorGroup where
  serial : Nat
  failures : List Failure
  nonempty : failures ≠ []
  fresh : ∀ f ∈ failures, f.raised.serial < serial
deriving DecidableEq, Repr

/-- A class of errors, known by its instances: which error objects, and whether groups of errors. -/
structure ErrorClass where
  hasError : Raised → Bool
  hasGroup : Bool

namespace ErrorClass

/-- A query error is a value error. -/
def value : ErrorClass := ⟨fun _ => true, false⟩

def query : ErrorClass := ⟨fun _ => true, false⟩

/-- An inverted period is a query error of a class of its own. -/
def invertedPeriod : ErrorClass where
  hasError r :=
    match r.error with
    | .invertedPeriod _ _ _ => true
    | .refused _ => false
  hasGroup := false

def key : ErrorClass := ⟨fun _ => false, false⟩

def any : ErrorClass := ⟨fun _ => true, true⟩

def group : ErrorClass := ⟨fun _ => false, true⟩

end ErrorClass

/-- What a membership question is about. -/
inductive Sought where
  /-- The error object with a serial number. -/
  | object (serial : Nat)
  /-- Any of some classes. -/
  | classes (classes : List ErrorClass)

namespace ErrorGroup

/-- Pairs errors with serial numbers from `next` on. -/
def numbered : Nat → List (Int × QueryError) → List Failure
  | _, [] => []
  | next, (index, e) :: rest => ⟨index, next, e⟩ :: numbered (next + 1) rest

@[simp] theorem length_numbered (next : Nat) (fs : List (Int × QueryError)) :
    (numbered next fs).length = fs.length := by
  induction fs generalizing next with
  | nil => rfl
  | cons f fs ih => simp [numbered, ih]

theorem serial_of_mem_numbered {next : Nat} {fs : List (Int × QueryError)} {f : Failure}
    (h : f ∈ numbered next fs) :
    next ≤ f.raised.serial ∧ f.raised.serial < next + fs.length := by
  induction fs generalizing next with
  | nil => cases h
  | cons g fs ih =>
    rw [List.length_cons]
    rcases List.mem_cons.1 h with rfl | h
    · simp
    · have := ih h
      omega

/-- The group of some failures, with serial numbers from `next` on; there is none without a
failure. -/
def of? (next : Nat) (fs : List (Int × QueryError)) : Option ErrorGroup :=
  if h : fs = [] then none
  else some ⟨next + fs.length, numbered next fs, fun hn =>
    h (List.eq_nil_of_length_eq_zero (by rw [← length_numbered next fs, hn]; rfl)),
    fun _ hf => (serial_of_mem_numbered hf).2⟩

/-- The first serial number after those of a group. -/
def nextSerial (g : ErrorGroup) : Nat := g.serial + 1

/-- The error objects of a group, in order. -/
def errors (g : ErrorGroup) : List Raised := g.failures.map (·.raised)

/-- The errors that some classes select: all of them where the group is an instance itself, else
those that are; nothing where none is. -/
def subgroup (g : ErrorGroup) (cs : List ErrorClass) : Option (List Raised) :=
  if cs.any (·.hasGroup) then some g.errors
  else
    match g.errors.filter fun r => cs.any fun c => c.hasError r with
    | [] => none
    | selected => some selected

def contains (g : ErrorGroup) : Sought → Bool
  | .object serial => g.errors.any fun r => r.serial == serial
  | .classes cs => (g.subgroup cs).isSome

def message (g : ErrorGroup) : Text :=
  natural g.failures.length ++ " query fragment(s) failed to render".text

/-- The message and the number of errors in the group. -/
def summary (g : ErrorGroup) : Text :=
  let n := g.failures.length
  g.message ++ " (".text ++ natural n
    ++ (if n = 1 then " sub-exception)".text else " sub-exceptions)".text)

/-- The text that refuses a group of no failures. -/
def emptyMessage : Text := "second argument (exceptions) must be a non-empty sequence".text

end ErrorGroup

/-! ## Results -/

structure QueryResult where
  query : Text
  error : Option ErrorGroup
deriving DecidableEq, Repr

namespace QueryResult

def ok (r : QueryResult) : Bool := r.error.isNone

/-- The query of a result without failures; otherwise its group of errors. -/
def orRaise (r : QueryResult) : Except ErrorGroup Text :=
  match r.error with
  | none => .ok r.query
  | some g => .error g

/-- The result of an assembly, with serial numbers from `next` on. -/
def ofItems (next : Nat) (items : List Item) : Except AssemblyError QueryResult :=
  (assemble items).map fun p =>
    ⟨p.1, ErrorGroup.of? next (p.2.map fun o => ((o.index : Int), o.error))⟩

end QueryResult

end SearchQuery
