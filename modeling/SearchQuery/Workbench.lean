import SearchQuery.Assembly
import SearchQuery.Entries
import SearchQuery.Qualifier

/-!
# A workbench of named fragments

Fragments under construction, each under one or more names. Every fragment holds an *exclusion*,
a flag of its own unless it was given one that others hold too, and excluding a fragment sets the
flag it holds.

**State.** `flags` has the value of every exclusion and `objects` every object made so far; both
only grow, and a number into them is the identity of an exclusion or an object. `slots` maps
names to objects.

`flag_setFlag` says that excluding touches one exclusion.

**Steps.** `step` takes one step and answers it. A step that fails answers its error and leaves
the state as it was. What an object shows of itself is its `View`.
-/

namespace SearchQuery

/-! ## Objects and state -/

/-- An object that a slot may name; `flag` is the number of an exclusion. -/
inductive Object where
  | fragment (term : Term) (flag : Nat)
  | exclusion (flag : Nat)
  | foreign (foreign : Foreign)

/-- What an object shows of itself. -/
inductive View where
  | fragment (fragment : Fragment)
  | exclusion (excluded : Bool)
  | foreign

structure Workbench where
  flags : List Bool
  objects : List Object
  slots : Entries Text Nat
  /-- The result of the last assembly that gave one. -/
  last : Option QueryResult
  /-- The first serial number that no error object has. -/
  nextSerial : Nat

/-- A new value for a field of a fragment. -/
inductive Assignment where
  | tag (tag : Text)
  | text (value : Text)
  | value (value : Timestamp)
  | start (value : Timestamp)
  | finish (value : Timestamp)
  | comparison (comparison : Comparison)
  | format (format : DateFormat)
  /-- The exclusion that another slot is or holds. -/
  | exclusion (slot : Text)

/-- What is asked of the last result's group of errors. -/
inductive Question where
  | classes (classes : List ErrorClass)
  /-- The error object at a position of the group. -/
  | failure (position : Nat)
  /-- A new error object equal to the one at a position. -/
  | copy (position : Nat)
  /-- The group itself. -/
  | group

inductive Step where
  /-- A fragment, excluded as many times as asked; it holds an exclusion of its own, or the one of
  another slot. -/
  | new (slot : Text) (term : Term) (exclusion : Option Text) (exclusions : Nat)
  /-- The fragment of a qualifier. -/
  | build (slot : Text) (qualifier : Qualifier) (timezoned : Bool) (exclusions : Nat)
  | newForeign (slot : Text) (foreign : Foreign)
  | newExclusion (slot : Text) (excluded : Bool)
  /-- A second name for an object. -/
  | alias (slot target : Text)
  | set (slot : Text) (assignment : Assignment)
  | exclude (slot : Text)
  | view (slot : Text)
  | compare (a b : Text)
  | assemble (slots : List Text)
  | contains (question : Question)

inductive Answer where
  | view (view : View)
  /-- Whether excluding an object gave the object, and what it shows then. -/
  | excluded (same : Bool) (view : View)
  | compared (equal same : Bool)
  | result (result : QueryResult)
  /-- Nothing when the last result has no group of errors. -/
  | contained (answer : Option Bool)
  | qualifierError (error : QualifierError)
  | assemblyError (error : AssemblyError)
  /-- A slot or an error object that was asked for does not exist. -/
  | missing

namespace Term

/-- Changes a field; a term without that field stays as it is. -/
def assign : Term → Assignment → Term
  | .text _, .text v => .text v
  | .tag _ v, .tag t => .tag t v
  | .tag t _, .text v => .tag t v
  | .single _ f v c, .tag t => .single t f v c
  | .single t _ v c, .format f => .single t f v c
  | .single t f _ c, .value v => .single t f v c
  | .single t f v _, .comparison c => .single t f v c
  | .range _ f s e, .tag t => .range t f s e
  | .range t _ s e, .format f => .range t f s e
  | .range t f _ e, .start s => .range t f s e
  | .range t f s _, .finish e => .range t f s e
  | t, _ => t

end Term

namespace Workbench

def empty : Workbench := ⟨[], [], [], none, 0⟩

/-- The value of an exclusion. -/
def flag (w : Workbench) (n : Nat) : Bool := w.flags.getD n false

/-- The object that a slot names, and its number. -/
def find? (w : Workbench) (slot : Text) : Option (Nat × Object) :=
  (w.slots.find? slot).bind fun n => (w.objects[n]?).map fun o => (n, o)

def viewOf (w : Workbench) : Object → View
  | .fragment term n => .fragment ⟨term, w.flag n⟩
  | .exclusion n => .exclusion (w.flag n)
  | .foreign _ => .foreign

/-- The exclusion that an object is or holds. -/
def flagOf? : Object → Option Nat
  | .fragment _ n => some n
  | .exclusion n => some n
  | .foreign _ => none

/-- The object as an item of an assembly. An exclusion renders too, to what it puts in front of a
fragment. -/
def itemOf (w : Workbench) : Object → Item
  | .fragment term n => .own ⟨term, w.flag n⟩
  | .exclusion n => .foreign ⟨none, .ok (dash (w.flag n))⟩
  | .foreign f => .foreign f

/-- Whether two objects that are not one are equal. A foreign fragment equals only itself. -/
def equal (w : Workbench) : Object → Object → Bool
  | .fragment t n, .fragment u m => Fragment.same ⟨t, w.flag n⟩ ⟨u, w.flag m⟩
  | .exclusion n, .exclusion m => w.flag n == w.flag m
  | _, _ => false

/-! ## Changes of the state -/

/-- Adds an object under a name. -/
def add (w : Workbench) (slot : Text) (o : Object) : Workbench :=
  { w with objects := w.objects ++ [o], slots := w.slots.put slot w.objects.length }

/-- Adds an exclusion that no object holds yet. -/
def addFlag (w : Workbench) (excluded : Bool) : Workbench :=
  { w with flags := w.flags ++ [excluded] }

def setFlag (w : Workbench) (n : Nat) : Workbench := { w with flags := w.flags.set n true }

/-- Adds a fragment that holds the exclusion `flag`, excluded as many times as asked. -/
def addFragment (w : Workbench) (slot : Text) (term : Term) (flag exclusions : Nat) : Workbench :=
  let w := if exclusions = 0 then w else w.setFlag flag
  w.add slot (.fragment term flag)

/-- Adds a fragment with an exclusion of its own. -/
def addOwn (w : Workbench) (slot : Text) (f : Fragment) (exclusions : Nat) : Workbench :=
  (w.addFlag f.excluded).addFragment slot f.term w.flags.length exclusions

/-- Puts another object in the place of one. -/
def replace (w : Workbench) (n : Nat) (o : Object) : Workbench :=
  { w with objects := w.objects.set n o }

theorem flag_addFlag (w : Workbench) (excluded : Bool) (n : Nat) :
    (w.addFlag excluded).flag n = if n = w.flags.length then excluded else w.flag n := by
  simp only [flag, addFlag, List.getD_eq_getElem?_getD, List.getElem?_append]
  by_cases h : n < w.flags.length
  · simp [h, Nat.ne_of_lt h]
  · by_cases he : n = w.flags.length
    · simp [he]
    · have hk : n - w.flags.length ≠ 0 := by omega
      simp [h, he, hk]

/-- Excluding sets one exclusion, which has to exist, and leaves the others. -/
theorem flag_setFlag (w : Workbench) (n m : Nat) :
    (w.setFlag n).flag m = (w.flag m || (decide (m = n) && decide (n < w.flags.length))) := by
  simp only [flag, setFlag, List.getD_eq_getElem?_getD, List.getElem?_set]
  by_cases h : n = m
  · subst h
    by_cases hn : n < w.flags.length
    · simp [hn]
    · simp [hn]
  · simp [h, Ne.symm h]

/-! ## Steps -/

/-- What the object of a slot shows. -/
def answerView (w : Workbench) (slot : Text) : Answer :=
  match w.find? slot with
  | some (_, o) => .view (w.viewOf o)
  | none => .missing

def stepSet (w : Workbench) (slot : Text) (a : Assignment) : Workbench × Answer :=
  match w.find? slot with
  | some (n, .fragment term flag) =>
    let changed : Option Object :=
      match a with
      | .exclusion source =>
        ((w.find? source).bind fun p => flagOf? p.2).map fun m => .fragment term m
      | a => some (.fragment (term.assign a) flag)
    match changed with
    | some o => let w := w.replace n o; (w, w.answerView slot)
    | none => (w, .missing)
  | some (_, o) => (w, .view (w.viewOf o))
  | none => (w, .missing)

def stepExclude (w : Workbench) (slot : Text) : Workbench × Answer :=
  match w.find? slot with
  | some (_, o) =>
    match o with
    | .fragment _ n => let w := w.setFlag n; (w, .excluded true (w.viewOf o))
    | .exclusion n => let w := w.setFlag n; (w, .excluded false (w.viewOf o))
    | .foreign _ => (w, .excluded true (w.viewOf o))
  | none => (w, .missing)

def stepAssemble (w : Workbench) (slots : List Text) : Workbench × Answer :=
  match slots.mapM w.find? with
  | none => (w, .missing)
  | some objects =>
    match QueryResult.ofItems w.nextSerial (objects.map fun p => w.itemOf p.2) with
    | .ok r =>
      let next := (r.error.map ErrorGroup.nextSerial).getD w.nextSerial
      ({ w with last := some r, nextSerial := next }, .result r)
    | .error e => (w, .assemblyError e)

/-- The question in terms of error objects. A copy has a serial number that none has had. -/
def sought? (w : Workbench) (g : ErrorGroup) : Question → Option Sought
  | .classes cs => some (.classes cs)
  | .failure i => (g.errors[i]?).map fun r => .object r.serial
  | .copy i => (g.errors[i]?).map fun _ => .object w.nextSerial
  | .group => some (.object g.serial)

def answerContains (w : Workbench) (q : Question) : Answer :=
  match w.last.bind QueryResult.error with
  | none => .contained none
  | some g =>
    match w.sought? g q with
    | some s => .contained (some (g.contains s))
    | none => .missing

/-- Takes one step. -/
def step (w : Workbench) : Step → Workbench × Answer
  | .new slot term exclusion exclusions =>
    match exclusion with
    | none =>
      let w := w.addOwn slot ⟨term, false⟩ exclusions
      (w, w.answerView slot)
    | some source =>
      match (w.find? source).bind fun p => flagOf? p.2 with
      | some n =>
        let w := w.addFragment slot term n exclusions
        (w, w.answerView slot)
      | none => (w, .missing)
  | .build slot qualifier timezoned exclusions =>
    match qualifier.fragment timezoned with
    | .ok f =>
      let w := w.addOwn slot f exclusions
      (w, w.answerView slot)
    | .error e => (w, .qualifierError e)
  | .newForeign slot f =>
    let w := w.add slot (.foreign f)
    (w, w.answerView slot)
  | .newExclusion slot excluded =>
    let w := (w.addFlag excluded).add slot (.exclusion w.flags.length)
    (w, w.answerView slot)
  | .alias slot target =>
    match w.slots.find? target with
    | some n =>
      let w := { w with slots := w.slots.put slot n }
      (w, w.answerView slot)
    | none => (w, .missing)
  | .set slot a => w.stepSet slot a
  | .exclude slot => w.stepExclude slot
  | .view slot => (w, w.answerView slot)
  | .compare a b =>
    match w.find? a, w.find? b with
    | some (n, o), some (m, p) => (w, .compared (n == m || w.equal o p) (n == m))
    | _, _ => (w, .missing)
  | .assemble slots => w.stepAssemble slots
  | .contains q => (w, w.answerContains q)

/-- Takes steps one after the other and collects the answers. -/
def run (w : Workbench) : List Step → Workbench × List Answer
  | [] => (w, [])
  | s :: rest =>
    let (w, answer) := w.step s
    let (w, answers) := w.run rest
    (w, answer :: answers)

/-- Showing, comparing and asking leave the state as it is. -/
theorem step_view (w : Workbench) (slot : Text) : (w.step (.view slot)).1 = w := rfl

theorem step_contains (w : Workbench) (q : Question) : (w.step (.contains q)).1 = w := rfl

theorem step_compare (w : Workbench) (a b : Text) : (w.step (.compare a b)).1 = w := by
  simp only [step]; split <;> rfl

end Workbench

end SearchQuery
