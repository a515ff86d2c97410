import SearchQuery.Proofs.Json.RoundTrip
import SearchQuery.Proofs.Text
import SearchQuery.Utf8

/-!
# The bytes of a document

**Theorem (`read_decode_document`).** The bytes of a restorable document are decoded, and what is
decoded reads back as the object.

A document holds characters of ASCII only and no carriage return (`plain_document`), whatever its
texts hold, because the writer escapes everything else. For such a text each character is one byte
and the unifying of line ends does nothing.
-/

namespace SearchQuery

/-- A text of ASCII without a carriage return. -/
def Plain (t : Text) : Prop := ∀ c ∈ t, c.toNat < 0x80 ∧ c ≠ .char '\r'

instance (t : Text) : Decidable (Plain t) := inferInstanceAs (Decidable (∀ c ∈ t, _))

namespace Plain

theorem nil : Plain [] := fun _ h => absurd h List.not_mem_nil

theorem append {t u : Text} (ht : Plain t) (hu : Plain u) : Plain (t ++ u) := by
  intro c hc
  rcases List.mem_append.1 hc with hc | hc
  · exact ht c hc
  · exact hu c hc

theorem cons {c : CodePoint} {t : Text} (hc : c.toNat < 0x80 ∧ c ≠ .char '\r') (ht : Plain t) :
    Plain (c :: t) := append (List.forall_mem_singleton.2 hc) ht

theorem subset {t u : Text} (hu : Plain u) (h : ∀ c ∈ t, c ∈ u) : Plain t :=
  fun c hc => hu c (h c hc)

theorem flatMap {t : Text} {f : CodePoint → Text} (h : ∀ c, Plain (f c)) : Plain (t.flatMap f) := by
  intro c hc
  obtain ⟨d, -, hd⟩ := List.mem_flatMap.1 hc
  exact h d c hd

theorem replicate (n : Nat) {c : CodePoint} (h : c.toNat < 0x80 ∧ c ≠ .char '\r') :
    Plain (List.replicate n c) := by
  intro d hd
  rwa [List.eq_of_mem_replicate hd]

theorem of_isDigit {t : Text} (h : ∀ c ∈ t, c.isDigit = true) : Plain t := by
  intro c hc
  have hd := toNat_of_isDigit (h c hc)
  refine ⟨by omega, ?_⟩
  rintro rfl
  simp at hd

end Plain

/-! ## Decoding -/

namespace Utf8

theorem encode_cons_of_lt {c : CodePoint} (h : c.toNat < 0x80) (t : Text) :
    ∃ b : UInt8, b.toNat < 0x80 ∧ .char (Char.ofNat b.toNat) = c ∧ encode (c :: t) = b :: encode t := by
  cases c with
  | half n =>
    simp only [CodePoint.toNat, CodePoint.firstHalf] at h
    omega
  | char c =>
    rw [CodePoint.toNat_char] at h
    have hs : c.utf8Size = 1 := by
      rw [Char.utf8Size_eq_one_iff, UInt32.le_iff_toNat_le]
      exact Nat.le_of_lt_succ h
    have hb : c.val.toUInt8.toNat = c.toNat := by
      rw [UInt32.toNat_toUInt8]
      exact Nat.mod_eq_of_lt (show c.toNat < 2 ^ 8 by omega)
    refine ⟨c.val.toUInt8, by omega, by rw [hb, Char.ofNat_toNat], ?_⟩
    rw [encode, List.flatMap_cons, CodePoint.shown, String.utf8EncodeChar_eq_singleton hs]
    rfl

theorem decodeFrom_encode {t : Text} (h : ∀ c ∈ t, c.toNat < 0x80) (position : Nat) :
    decodeFrom .between position (encode t) = .ok t := by
  induction t generalizing position with
  | nil => rfl
  | cons c t ih =>
    obtain ⟨b, hb, hc, he⟩ := encode_cons_of_lt (h c List.mem_cons_self) t
    rw [he, decodeFrom, if_pos hb, ih (fun d hd => h d (List.mem_cons_of_mem _ hd)), hc]

end Utf8

/-- Plain texts survive the way through a file. -/
theorem Plain.decode_encode {t : Text} (h : Plain t) : Utf8.decode (Utf8.encode t) = .ok t :=
  Utf8.decodeFrom_encode (fun c hc => (h c hc).1) 0

theorem Plain.unifyNewlines {t : Text} (h : Plain t) : unifyNewlines t = t :=
  unifyNewlines_of_not_mem fun hc => (h _ hc).2 rfl

/-! ## Documents are plain -/

theorem plain_fixedHex (width n : Nat) : Plain (fixedHex width n) := by
  have all : ∀ m, m < 16 → (CodePoint.char (Nat.digitChar m)).toNat < 0x80 ∧
      CodePoint.char (Nat.digitChar m) ≠ .char '\r' := by decide
  intro c hc
  obtain ⟨d, hd, rfl⟩ := digitChar_of_mem_fixedHex hc
  exact all d hd

theorem plain_natural (n : Nat) : Plain (natural n) :=
  .of_isDigit fun _ hc => isDigit_of_mem_natural hc

theorem plain_integer (i : Int) : Plain (integer i) := by
  cases i with
  | ofNat n => exact plain_natural n
  | negSucc n => exact .cons (by decide) (plain_natural (n + 1))

theorem plain_exponentText (e : Int) : Plain (Decimal.exponentText e) := by
  have hs := plain_natural e.natAbs
  refine .cons (by decide) (.cons (by split <;> decide) ?_)
  split
  · exact .cons (by decide) hs
  · exact hs

theorem plain_decimalLayout {digits : Text} (h : Plain digits) (point : Int) :
    Plain (Decimal.layout digits point) := by
  have htake : ∀ n, Plain (digits.take n) := fun n => h.subset fun _ => List.mem_of_mem_take
  have hdrop : ∀ n, Plain (digits.drop n) := fun n => h.subset fun _ => List.mem_of_mem_drop
  unfold Decimal.layout
  split
  · refine .append (.append (htake 1) ?_) (plain_exponentText _)
    split
    · exact .nil
    · exact .cons (by decide) (hdrop 1)
  · split
    · exact .append (.append (by decide) (.replicate _ (by decide))) h
    · split
      · exact .append (.append h (.replicate _ (by decide))) (by decide)
      · exact .append (htake _) (.cons (by decide) (hdrop _))

/-- A number is plain when the words for what is none and for infinity are. -/
theorem plain_write {nanWord infinityWord : Text} (hn : Plain nanWord) (hi : Plain infinityWord)
    (x : Binary64) : Plain (x.write nanWord infinityWord) := by
  have hdash : ∀ b, Plain (Binary64.write.dashIf b) := by decide
  cases x with
  | nan => exact hn
  | infinite b => exact .append (hdash b) hi
  | finite b s e =>
    refine .append (hdash b) ?_
    split
    · decide
    · have hd := plain_natural (Decimal.shortest s e).digits
      refine plain_decimalLayout (hd.subset fun c hc => ?_) _
      have hr := List.mem_reverse.1 hc
      exact List.mem_reverse.1 ((List.dropWhile_sublist _).subset hr)

theorem plain_writeFloat (x : Binary64) : Plain (Json.writeFloat x) :=
  plain_write (by decide) (by decide) x

namespace Json

theorem plain_writePoint (c : CodePoint) : Plain (writePoint c) := by
  have hunit : ∀ n, Plain (unitEscape n) := fun n =>
    .cons (by decide) (.cons (by decide) (plain_fixedHex 4 n))
  rw [writePoint]
  cases hl : escapeLetter? c with
  | some l =>
    refine .cons (by decide) (.cons ?_ .nil)
    unfold escapeLetter? at hl
    split at hl
    case h_8 => simp at hl
    all_goals
      obtain rfl := Option.some.inj hl
      decide
  | none =>
    simp only
    by_cases hv : 0x20 ≤ c.toNat ∧ c.toNat < 0x7F
    · rw [if_pos hv]
      refine .cons ⟨by omega, ?_⟩ .nil
      rintro rfl
      simp at hv
    · rw [if_neg hv]
      -- Above the first plane it is written as two halves.
      by_cases hn : c.toNat < 0x10000
      · rw [if_pos hn]
        exact hunit _
      · rw [if_neg hn]
        exact .append (hunit _) (hunit _)

theorem plain_newLineAt (level : Nat) : Plain (newLineAt level) :=
  .cons (by decide) (.replicate _ (by decide))

mutual

theorem plain_textAt (level : Nat) : ∀ v : Json, Plain (textAt level v)
  | .null => (by decide : Plain "null".text)
  | .bool b => by
    cases b
    · exact (by decide : Plain "false".text)
    · exact (by decide : Plain "true".text)
  | .int n => by simpa [textAt, layout, Piece.write] using plain_integer n
  | .float x => by simpa [textAt, layout, Piece.write] using plain_writeFloat x
  | .string t => by
    have ht : Plain (writeString t) :=
      .append (.cons (by decide) (.flatMap plain_writePoint)) (by decide)
    simpa [textAt, layout, Piece.write] using ht
  | .array [] => (by decide : Plain "[]".text)
  | .array (x :: xs) => by
    rw [textAt_array]
    exact .cons (by decide) (.append (plain_newLineAt _) (.append (plain_textAt _ x)
      (.append (plain_elementsAt _ xs) (.append (plain_newLineAt _) (by decide)))))
  | .object [] => (by decide : Plain "\x7b\x7d".text)
  | .object ((k, x) :: ms) => by
    rw [textAt_object]
    exact .cons (by decide) (.append (plain_newLineAt _) (.append (plain_memberAt _ k x)
      (.append (plain_membersAt _ ms) (.append (plain_newLineAt _) (by decide)))))

theorem plain_memberAt (level : Nat) (k : Text) (v : Json) : Plain (memberAt level k v) :=
  .cons (by decide) (.append (.flatMap plain_writePoint)
    (.cons (by decide) (.cons (by decide) (.cons (by decide) (plain_textAt level v)))))

theorem plain_elementsAt (level : Nat) : ∀ xs : List Json, Plain (elementsAt level xs)
  | [] => .nil
  | x :: xs => by
    rw [elementsAt_cons]
    exact .cons (by decide) (.append (plain_newLineAt _)
      (.append (plain_textAt _ x) (plain_elementsAt _ xs)))

theorem plain_membersAt (level : Nat) : ∀ ms : List (Text × Json), Plain (membersAt level ms)
  | [] => .nil
  | (k, x) :: ms => by
    rw [membersAt_cons]
    exact .cons (by decide) (.append (plain_newLineAt _)
      (.append (plain_memberAt _ k x) (plain_membersAt _ ms)))

end

theorem plain_document (ms : Entries Text Json) : Plain (document ms) :=
  .append (plain_textAt 0 (.object ms)) (by decide)

/-- **The bytes of a document read back as the object.** -/
theorem read_decode_document {ms : Entries Text Json} (h : Restorable depthLimit (.object ms)) :
    ∃ t, Utf8.decode (Utf8.encode (document ms)) = .ok t ∧
      read (unifyNewlines t) = .ok (.object ms) :=
  ⟨document ms, (plain_document ms).decode_encode, by
    rw [(plain_document ms).unifyNewlines, read_document h]⟩

end Json

end SearchQuery
