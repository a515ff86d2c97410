import SearchQuery.Proofs.Text
import SearchQuery.Qualifier

/-!
# Messages of one line

A message that quotes what a user wrote never holds a line feed, whatever the user wrote: a quoted
text spells it with a backslash (`oneLine_quoted`), and the numerals of a timestamp have none.
-/

namespace SearchQuery

/-! ## Quoted texts -/

@[simp] theorem oneLine_fixedHex (width n : Nat) : OneLine (fixedHex width n) := by
  have hdigit : ∀ d, d < 16 → CodePoint.char '\n' ≠ .char (Nat.digitChar d) := by decide
  intro h
  obtain ⟨d, hd, hc⟩ := digitChar_of_mem_fixedHex h
  exact hdigit d hd hc

theorem oneLine_byNumber (c : CodePoint) : OneLine (byNumber c) := by
  simp only [byNumber]
  split
  · simp
  · split <;> simp

theorem oneLine_quotedPoint {mark : CodePoint} (hm : mark ≠ .char '\n') (c : CodePoint) :
    OneLine (quotedPoint mark c) := by
  rw [quotedPoint]
  by_cases hc : c = mark ∨ c = '\\'
  · rw [if_pos hc]
    rcases hc with rfl | rfl
    · simpa using hm
    · decide
  · rw [if_neg hc]
    by_cases hn : c = '\n'
    · rw [if_pos hn]
      decide
    · rw [if_neg hn]
      split
      · decide
      · split
        · decide
        · split
          · exact oneLine_byNumber c
          · simpa using hn

@[simp] theorem oneLine_quoted (t : Text) : OneLine (quoted t) := by
  have hm : quoteMark t ≠ .char '\n' := by
    unfold quoteMark
    split <;> decide
  have hpoints : OneLine (t.flatMap (quotedPoint (quoteMark t))) := by
    intro h
    obtain ⟨c, -, hc⟩ := List.mem_flatMap.1 h
    exact oneLine_quotedPoint hm c hc
  simp [quoted, hm, hpoints]

/-! ## Timestamps -/

@[simp] theorem Date.oneLine_iso (d : Date) : OneLine d.iso := by
  simp [Date.iso]

@[simp] theorem Clock.oneLine_iso (c : Clock) : OneLine c.iso := by
  unfold Clock.iso
  split <;> simp [Clock.isoSeconds]

@[simp] theorem Offset.oneLine_iso (o : Offset) : OneLine o.iso := by
  have hsign : CodePoint.char (if o.micros < 0 then '-' else '+') ≠ .char '\n' := by
    split <;> decide
  simp only [Offset.iso]
  generalize (if o.micros < 0 then '-' else '+') = sign at hsign ⊢
  split
  · simpa using hsign
  · split <;> simpa using hsign

@[simp] theorem Timestamp.oneLine_iso (t : Timestamp) : OneLine t.iso := by
  cases t with
  | date d => exact d.oneLine_iso
  | dateTime t => cases h : t.offset <;> simp [Timestamp.iso, DateTime.iso, h]

/-! ## Errors -/

theorem Key.oneLine_name (k : Key) : OneLine k.name := by cases k <;> decide

theorem QualifierError.oneLine_message (e : QualifierError) : OneLine e.message := by
  cases e with
  | unknownKey name =>
    have hnames : OneLine (joined ", ".text (Key.all.map Key.name)) := by decide
    have hfront : OneLine "Unknown qualifier ".text := by decide
    have hmiddle : OneLine " (expected one of: ".text := by decide
    simp [QualifierError.message, hnames, hfront, hmiddle]
  | noValue key =>
    have hfront : OneLine "No value given for qualifier ".text := by decide
    simp [QualifierError.message, hfront]
  | invalidDate e =>
    have hfront : OneLine "Invalid date ".text := by decide
    have hback : OneLine ": expected ISO 8601".text := by decide
    simp [QualifierError.message, InvalidDate.message, hfront, hback]

theorem QueryError.oneLine_invertedPeriod {tag : Text} (h : OneLine tag) (s f : Timestamp) :
    OneLine (invertedPeriod tag s f).message := by
  have hfront : OneLine "invalid time period for '".text := by decide
  have hcolon : OneLine "': ".text := by decide
  have hafter : OneLine " is after ".text := by decide
  simp [QueryError.message, h, hfront, hcolon, hafter]

end SearchQuery
