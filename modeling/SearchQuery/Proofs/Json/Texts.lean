import SearchQuery.Proofs.Json.Restorable

/-!
# The text of a value can be written back

**Theorem (`joined_plain`).** What a value that was read is as a text of its own reads back when it
is written as a string, with and without the blanks at its ends.

A string is its own text and was joined when it was read. Every other value is shown as in a
message, where halves only stand by their numbers, so that its text is one of characters alone
(`halfFree_display`). Halves are joined with their neighbours only, so `Joined` is a property of
neighbours (`joined_iff_isChain`), and a part of a joined text is joined.
-/

namespace SearchQuery

/-! ## Joined texts -/

/-- A leading half and a trailing one. -/
def CodePoint.Pair : CodePoint → CodePoint → Prop
  | .half n, .half m => n.val < 0x400 ∧ 0x400 ≤ m.val
  | _, _ => False

/-- **A text is joined** when no two neighbours in it are a pair. -/
theorem joined_iff_isChain {t : Text} : Joined t ↔ t.IsChain fun c d => ¬ c.Pair d := by
  constructor
  · intro h
    rw [Joined] at h
    fun_induction Json.joinHalves t with
    | case1 n m rest hpair ih => cases h
    | case2 n m rest hpair ih =>
      exact List.isChain_cons_cons.2 ⟨hpair, ih (List.cons.inj h).2⟩
    | case3 c rest hnext ih =>
      refine List.isChain_cons.2 ⟨?_, ih (List.cons.inj h).2⟩
      intro d hd hpair
      obtain ⟨rest', rfl⟩ := List.head?_eq_some_iff.1 hd
      cases c with
      | char c => exact hpair
      | half n =>
        cases d with
        | char d => exact hpair
        | half m => exact hnext n m rest' rfl rfl
    | case4 => exact .nil
  · intro h
    induction t with
    | nil => rfl
    | cons c r ih =>
      obtain ⟨hhead, hr⟩ := List.isChain_cons.1 h
      cases c with
      | char c => rw [Joined, Json.joinHalves_char, ih hr]
      | half n => exact Json.joined_cons_half (fun m hm => hhead (.half m) hm) (ih hr)

theorem Joined.trim {t : Text} (h : Joined t) : Joined (trim t) := by
  obtain ⟨front, back, -, -, ht⟩ := exists_trim t
  rw [joined_iff_isChain, ht] at h
  exact joined_iff_isChain.2 h.right_of_append.left_of_append

/-! ## Characters alone -/

namespace HalfFree

theorem nil : HalfFree [] := fun _ h => absurd h List.not_mem_nil

theorem append {t u : Text} (ht : HalfFree t) (hu : HalfFree u) : HalfFree (t ++ u) :=
  List.forall_mem_append.2 ⟨ht, hu⟩

theorem cons (c : Char) {t : Text} (ht : HalfFree t) : HalfFree (.char c :: t) :=
  List.forall_mem_cons.2 ⟨⟨c, rfl⟩, ht⟩

end HalfFree

theorem Plain.halfFree {t : Text} (h : Plain t) : HalfFree t := by
  intro c hc
  cases c with
  | char c => exact ⟨c, rfl⟩
  | half n =>
    have hlt := (h _ hc).1
    simp only [CodePoint.toNat, CodePoint.firstHalf] at hlt
    omega

theorem halfFree_byNumber (c : CodePoint) : HalfFree (byNumber c) := by
  rw [byNumber]
  split
  · exact .cons _ (.cons _ (plain_fixedHex _ _).halfFree)
  · split
    · exact .cons _ (.cons _ (plain_fixedHex _ _).halfFree)
    · exact .cons _ (.cons _ (plain_fixedHex _ _).halfFree)

theorem halfFree_quotedPoint (mark : Char) (c : CodePoint) : HalfFree (quotedPoint mark c) := by
  cases c with
  | half n =>
    rw [quotedPoint, if_neg (by simp), if_neg (by simp), if_neg (by simp), if_neg (by simp),
      if_pos (isUnprintable_half n)]
    exact halfFree_byNumber _
  | char c =>
    have hc : HalfFree [.char c] := .cons c .nil
    rw [quotedPoint]
    split
    · exact .cons _ hc
    · split
      · decide
      · split
        · decide
        · split
          · decide
          · split
            · exact halfFree_byNumber _
            · exact hc

/-- **A quoted text** has no halves, whatever the text has. -/
theorem halfFree_quoted (t : Text) : HalfFree (quoted t) := by
  obtain ⟨mark, hmark⟩ : ∃ mark : Char, quoteMark t = .char mark := by
    unfold quoteMark
    split
    · exact ⟨_, rfl⟩
    · exact ⟨_, rfl⟩
  have hpoints : HalfFree (t.flatMap (quotedPoint mark)) := by
    intro c hc
    obtain ⟨d, -, hd⟩ := List.mem_flatMap.1 hc
    exact halfFree_quotedPoint mark d c hd
  simp only [quoted, hmark]
  exact (hpoints.cons mark).append (.cons mark .nil)

/-! ## Values -/

namespace Json

mutual

theorem halfFree_display : ∀ v : Json, HalfFree v.display
  | .null => by decide
  | .bool b => by cases b <;> decide
  | .int n => (plain_integer n).halfFree
  | .float x => (plain_write (by decide) (by decide) x).halfFree
  | .string t => halfFree_quoted t
  | .array [] => by decide
  | .array (x :: xs) =>
    (((halfFree_display x).append (halfFree_displayElements xs)).append (by decide)).cons _
  | .object [] => by decide
  | .object ((k, x) :: ms) =>
    ((((halfFree_quoted k).append (by decide)).append (halfFree_display x)).append
      (halfFree_displayMembers ms)).append (by decide) |>.cons _

theorem halfFree_displayElements : ∀ xs : List Json, HalfFree (displayElements xs)
  | [] => .nil
  | x :: xs =>
    ((by decide : HalfFree ", ".text).append (halfFree_display x)).append
      (halfFree_displayElements xs)

theorem halfFree_displayMembers : ∀ ms : List (Text × Json), HalfFree (displayMembers ms)
  | [] => .nil
  | (k, x) :: ms =>
    (((by decide : HalfFree ", ".text).append (halfFree_quoted k)).append
      (by decide)).append (halfFree_display x) |>.append (halfFree_displayMembers ms)

end

/-- **A value that reads back** has a text that does so as well. -/
theorem joined_plain {d : Nat} {v : Json} (h : Restorable d v) : Joined v.plain := by
  cases h with
  | string h => exact h
  | null => exact (halfFree_display _).joined
  | bool b => exact (halfFree_display _).joined
  | int h => exact (halfFree_display _).joined
  | float h => exact (halfFree_display _).joined
  | array h => exact (halfFree_display _).joined
  | object hk hj h => exact (halfFree_display _).joined

end Json

end SearchQuery
