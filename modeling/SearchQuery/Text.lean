import SearchQuery.CodePoint

/-!
# Texts

A text is a list of code points, so that every rule below is a recursion on its code points. Halves
may stand in it; `"abc".text` is the text of a string, which has none.

**Blanks.** `isBlank` is the white space of Unicode together with the four information
separators U+001C to U+001F; `trim` drops blanks at both ends and keeps those inside.

**Cuts.** A text is cut at the first occurrence of a mark (`cutAt`), at the first two dots
in a row (`cutAtDots`), or at every occurrence of a mark (`pieces`). Nothing is lost by a
cut: `cutAt_eq_some` and `cutAtDots_eq_some` give the text back from its parts.
-/

namespace SearchQuery

/-- What the program reads and writes: a list of code points. -/
abbrev Text := List CodePoint

end SearchQuery

/-- The text of a string. -/
def String.text (s : String) : SearchQuery.Text := s.toList.map .char

namespace SearchQuery

/-- The string to print for a text. -/
def Text.shown (t : Text) : String := String.ofList (t.map CodePoint.shown)

/-- How many bytes a text takes. -/
def byteCount : Text → Nat
  | [] => 0
  | c :: t => c.byteCount + byteCount t

/-! ## Blanks -/

/-- Closed ranges of code points, ascending and apart. -/
abbrev CodeRanges := List (Nat × Nat)

/-- Whether a code point lies in one of the ranges. -/
def CodeRanges.covers (ranges : CodeRanges) (n : Nat) : Bool :=
  ranges.any fun r => decide (r.1 ≤ n) && decide (n ≤ r.2)

/-- The code points that `trim` drops. -/
def blankRanges : CodeRanges :=
  [(0x09, 0x0D), (0x1C, 0x20), (0x85, 0x85), (0xA0, 0xA0), (0x1680, 0x1680), (0x2000, 0x200A),
   (0x2028, 0x2029), (0x202F, 0x202F), (0x205F, 0x205F), (0x3000, 0x3000)]

def isBlank (c : CodePoint) : Bool := blankRanges.covers c.toNat

/-- Every character that core calls white space is blank; the ranges add to that class and take
nothing away. -/
theorem isBlank_of_isWhitespace (c : Char) (h : c.isWhitespace = true) :
    isBlank (.char c) = true := by
  simp [Char.isWhitespace] at h
  rcases h with ((h | h) | h) | h <;> subst h <;> decide

/-- Drops the blanks at the front. -/
def trimFront (t : Text) : Text := t.dropWhile isBlank

/-- Drops the blanks at the back. -/
def trimBack (t : Text) : Text := (t.reverse.dropWhile isBlank).reverse

/-- Drops the blanks at both ends. -/
def trim (t : Text) : Text := trimBack (trimFront t)

@[simp] theorem trim_nil : trim [] = [] := rfl

/-! ## Cuts -/

/-- The parts before and after the first `mark`, or nothing when there is no `mark`. -/
def cutAt (mark : CodePoint) : Text → Option (Text × Text)
  | [] => none
  | c :: r => if c = mark then some ([], r) else (cutAt mark r).map fun p => (c :: p.1, p.2)

/-- The parts before and after the first two dots in a row. -/
def cutAtDots : Text → Option (Text × Text)
  | .char '.' :: .char '.' :: r => some ([], r)
  | c :: r => (cutAtDots r).map fun p => (c :: p.1, p.2)
  | [] => none

/-- The parts between the occurrences of `mark`; a text without it is one part. -/
def pieces (mark : CodePoint) : Text → List Text
  | [] => [[]]
  | c :: r =>
    if c = mark then [] :: pieces mark r
    else
      match pieces mark r with
      | [] => [[c]]
      | p :: ps => (c :: p) :: ps

/-- The texts one after the other with `glue` between neighbours. -/
def joined (glue : Text) : List Text → Text
  | [] => []
  | [t] => t
  | t :: u :: r => t ++ glue ++ joined glue (u :: r)

theorem cutAt_eq_some {mark : CodePoint} {t front back : Text}
    (h : cutAt mark t = some (front, back)) : t = front ++ mark :: back ∧ mark ∉ front := by
  induction t generalizing front with
  | nil => simp [cutAt] at h
  | cons c r ih =>
    rw [cutAt] at h
    by_cases hc : c = mark
    · rw [if_pos hc] at h
      simp only [Option.some.injEq, Prod.mk.injEq] at h
      obtain ⟨rfl, rfl⟩ := h
      simp [hc]
    · rw [if_neg hc] at h
      obtain ⟨⟨f, b⟩, hp, heq⟩ := Option.map_eq_some_iff.1 h
      simp only [Prod.mk.injEq] at heq
      obtain ⟨rfl, rfl⟩ := heq
      obtain ⟨hr, hf⟩ := ih hp
      refine ⟨by simp [hr], ?_⟩
      simp only [List.mem_cons, not_or]
      exact ⟨fun e => hc e.symm, hf⟩

theorem cutAt_eq_none_iff {mark : CodePoint} {t : Text} : cutAt mark t = none ↔ mark ∉ t := by
  induction t with
  | nil => simp [cutAt]
  | cons c r ih =>
    rw [cutAt]
    by_cases hc : c = mark
    · simp [hc]
    · rw [if_neg hc]
      simp only [Option.map_eq_none_iff, ih, List.mem_cons, not_or]
      exact ⟨fun h => ⟨fun e => hc e.symm, h⟩, fun h => h.2⟩

theorem cutAtDots_eq_some {t front back : Text} (h : cutAtDots t = some (front, back)) :
    t = front ++ .char '.' :: .char '.' :: back := by
  fun_induction cutAtDots t generalizing front with
  | case1 r =>
    simp only [Option.some.injEq, Prod.mk.injEq] at h
    obtain ⟨rfl, rfl⟩ := h
    rfl
  | case2 c r _ ih =>
    obtain ⟨⟨f, b⟩, hp, heq⟩ := Option.map_eq_some_iff.1 h
    simp only [Prod.mk.injEq] at heq
    obtain ⟨rfl, rfl⟩ := heq
    simp [ih hp]
  | case3 => simp at h

theorem pieces_ne_nil (mark : CodePoint) (t : Text) : pieces mark t ≠ [] := by
  cases t with
  | nil => simp [pieces]
  | cons c r =>
    unfold pieces
    split
    · simp
    · split <;> simp

/-- Joining the parts with the mark between them gives the text back. -/
theorem joined_pieces (mark : CodePoint) (t : Text) : joined [mark] (pieces mark t) = t := by
  induction t with
  | nil => rfl
  | cons c r ih =>
    rw [pieces]
    by_cases hc : c = mark
    · rw [if_pos hc]
      cases hp : pieces mark r with
      | nil => exact absurd hp (pieces_ne_nil mark r)
      | cons p ps => rw [hp] at ih; simp [joined, ih, hc]
    · rw [if_neg hc]
      cases hp : pieces mark r with
      | nil => exact absurd hp (pieces_ne_nil mark r)
      | cons p ps =>
        rw [hp] at ih
        cases ps with
        | nil => simpa [joined] using ih
        | cons q qs => simpa [joined] using ih

end SearchQuery
