import SearchQuery.Text

/-!
# Paths

**Paths.** A path is written with slashes between its parts. Empty parts and single dots say
nothing and are dropped; two dots lead to the folder above and are kept, since the folder they
lead out of has to exist. `Path.text` is the path as messages name it.

**Places.** A place is what a path leads to: the names from the top down to a file or folder.
`Path.place` follows the parts of a path and lets two dots take back the name before them;
`place_child` says that it goes one part at a time.
-/

namespace SearchQuery

/-- A path: the slashes that it starts with, at most two, and its parts. -/
structure Path where
  slashes : Nat
  parts : List Text
deriving DecidableEq, Repr

/-- Two dots: the folder above. -/
def above : Text := [.char '.', .char '.']

namespace Path

/-- How many slashes count at the start of a path: three or more are like one. -/
def leadingSlashes : Text → Nat
  | .char '/' :: .char '/' :: .char '/' :: _ => 1
  | .char '/' :: .char '/' :: _ => 2
  | .char '/' :: _ => 1
  | _ => 0

def ofText (t : Text) : Path :=
  ⟨leadingSlashes t, (pieces '/' t).filter fun p => p ≠ [] ∧ p ≠ [.char '.']⟩

def text (p : Path) : Text :=
  if p.slashes = 0 ∧ p.parts = [] then [.char '.']
  else List.replicate p.slashes (.char '/') ++ joined [.char '/'] p.parts

/-- The path without its parts: the top, or the working directory. -/
def root (p : Path) : Path := { p with parts := [] }

/-- The path of the folder that a path's last part is in. -/
def folder (p : Path) : Path := { p with parts := p.parts.dropLast }

/-- The path with one part more. -/
def child (p : Path) (part : Text) : Path := { p with parts := p.parts ++ [part] }

/-- Whether a path holds the null character, which no name of a file does. -/
def holdsNull (p : Path) : Bool := p.parts.any fun part => part.contains '\x00'

end Path

/-! ## Places -/

/-- The names from the top down to a file or folder, the innermost first. -/
structure Place where
  slashes : Nat
  names : List Text
deriving DecidableEq, Repr

namespace Place

/-- The folder above a place. Above the working directory the names are two dots; above the top
there is only the top. -/
def parent (p : Place) : Place :=
  match p.names with
  | [] => if p.slashes = 0 then ⟨0, [above]⟩ else p
  | name :: outer => if name = above then ⟨p.slashes, above :: p.names⟩ else ⟨p.slashes, outer⟩

/-- The place that a part of a path leads to. -/
def go (p : Place) (part : Text) : Place :=
  if part = above then p.parent else ⟨p.slashes, part :: p.names⟩

/-- Whether a place is the working directory, a folder above it, or the top. These exist. -/
def isOutside (p : Place) : Bool := p.names.all fun n => n == above

/-- The path that names a place. -/
def path (p : Place) : Path := ⟨p.slashes, p.names.reverse⟩

/-- The path of a place inside the working directory. -/
def text? (p : Place) : Option Text :=
  if p.slashes = 0 ∧ above ∉ p.names then some p.path.text else none

end Place

namespace Path

/-- The place that a path starts from. -/
def start (p : Path) : Place := ⟨p.slashes, []⟩

/-- The place that a path leads to. -/
def place (p : Path) : Place := p.parts.foldl Place.go p.start

theorem place_child (p : Path) (part : Text) : (p.child part).place = p.place.go part := by
  simp [place, child, start]

end Path

end SearchQuery
