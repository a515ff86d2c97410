import SearchQuery.Proofs.Entries
import SearchQuery.Proofs.Json.Numbers
import SearchQuery.Proofs.Json.Strings

/-!
# Documents read back

**Theorem (`read_document`).** The text of a file that holds an object reads back as that object.

Which values come back is the relation `Restorable d`, where `d` bounds how deep arrays and objects
stand inside each other: texts have no pair of halves to be joined, whole numbers have no more
digits than are read, binary numbers read back from their own text, and the keys of an object
differ.

The proof is an induction over `Restorable` with the statement `Reads d v`: behind the written
value whatever does not go on with a number is left over. The fuel of the reader is counted
against the length of the text, two for each character, because a value and the list that it
stands in call each other once for each of their brackets and commas.
-/

namespace SearchQuery

namespace Json

/-! ## Written values -/

/-- A value as it is written on a line of some level. -/
def textAt (level : Nat) (v : Json) : Text := (layout level v).flatMap Piece.write

/-- The elements after the first. -/
def elementsAt (level : Nat) (xs : List Json) : Text :=
  (layoutElements level xs).flatMap Piece.write

/-- The members after the first. -/
def membersAt (level : Nat) (ms : List (Text × Json)) : Text :=
  (layoutMembers level ms).flatMap Piece.write

def newLineAt (level : Nat) : Text := Piece.write (.newLine level)

/-- A member of an object. -/
def memberAt (level : Nat) (k : Text) (v : Json) : Text :=
  .char '"' :: (k.flatMap writePoint ++ .char '"' :: .char ':' :: .char ' ' :: textAt level v)

theorem textAt_array (level : Nat) (x : Json) (xs : List Json) :
    textAt level (.array (x :: xs)) =
      .char '[' :: (newLineAt (level + 1) ++ (textAt (level + 1) x ++ (elementsAt (level + 1) xs ++
        (newLineAt level ++ [.char ']'])))) := by
  simp [textAt, elementsAt, newLineAt, layout, Piece.write, String.text]

theorem textAt_object (level : Nat) (k : Text) (x : Json) (ms : List (Text × Json)) :
    textAt level (.object ((k, x) :: ms)) =
      .char '\x7b' :: (newLineAt (level + 1) ++ (memberAt (level + 1) k x ++
        (membersAt (level + 1) ms ++ (newLineAt level ++ [.char '\x7d'])))) := by
  simp [textAt, memberAt, membersAt, newLineAt, layout, Piece.write, writeString, String.text]

theorem elementsAt_cons (level : Nat) (x : Json) (xs : List Json) :
    elementsAt level (x :: xs) =
      .char ',' :: (newLineAt level ++ (textAt level x ++ elementsAt level xs)) := by
  simp [textAt, elementsAt, newLineAt, layoutElements, Piece.write, String.text]

theorem membersAt_cons (level : Nat) (k : Text) (x : Json) (ms : List (Text × Json)) :
    membersAt level ((k, x) :: ms) =
      .char ',' :: (newLineAt level ++ (memberAt level k x ++ membersAt level ms)) := by
  simp [textAt, memberAt, membersAt, newLineAt, layoutMembers, Piece.write, writeString,
    String.text]

theorem skipBlanks_newLineAt (level : Nat) (t : Text) :
    skipBlanks (newLineAt level ++ t) = skipBlanks t := by
  have hs : ∀ c ∈ newLineAt level, isJsonBlank c = true := by
    intro c hc
    rcases List.mem_cons.1 hc with rfl | hc
    · rfl
    · rw [List.eq_of_mem_replicate hc]; rfl
  rw [skipBlanks, List.dropWhile_append_of_pos hs]
  rfl

/-! ## What comes back -/

/-- A value that reads back with so many containers at most inside each other. -/
inductive Restorable : Nat → Json → Prop
  | null {d : Nat} : Restorable d .null
  | bool {d : Nat} (b : Bool) : Restorable d (.bool b)
  | int {d : Nat} {n : Int} (h : (natural n.natAbs).length ≤ digitLimit) : Restorable d (.int n)
  | float {d : Nat} {x : Binary64} (h : x.ReadsBack) : Restorable d (.float x)
  | string {d : Nat} {t : Text} (h : Joined t) : Restorable d (.string t)
  | array {d : Nat} {xs : List Json} (h : ∀ x ∈ xs, Restorable d x) :
      Restorable (d + 1) (.array xs)
  | object {d : Nat} {ms : Entries Text Json} (hk : ms.keys.Nodup) (hj : ∀ k ∈ ms.keys, Joined k)
      (h : ∀ m ∈ ms, Restorable d m.2) : Restorable (d + 1) (.object ms)

/-- An object may stand in another one. -/
theorem exists_depthLimit_eq : ∃ d, depthLimit = d + 2 :=
  Nat.exists_eq_add_of_le' (by decide)

/-- The written value is read as the value, and what follows it is left over. -/
def Reads (d : Nat) (v : Json) : Prop :=
  ∀ level fuel rest, 2 * (textAt level v).length + 1 ≤ fuel → EndsNumber rest →
    readValue d fuel (textAt level v ++ rest) = .ok (v, rest)

/-- What is read as a value starts neither with a blank nor with a closing bracket. -/
theorem starts_of_readValue {d fuel : Nat} {t : Text} {p : Json × Text}
    (h : readValue d fuel t = .ok p) :
    ∃ c r, t = c :: r ∧ isJsonBlank c = false ∧ c ≠ .char ']' := by
  cases fuel with
  | zero => rw [readValue] at h; exact absurd h (by simp)
  | succ fuel =>
    cases t with
    | nil =>
      simp [readValue, readScalar, words, skipWord, readUnsigned, readWhole, String.text] at h
    | cons c r =>
      refine ⟨c, r, rfl, ?_, ?_⟩
      · cases hb : isJsonBlank c with
        | false => rfl
        | true =>
          have hc : c = .char ' ' ∨ c = .char '\t' ∨ c = .char '\n' ∨ c = .char '\r' := by
            simpa [isJsonBlank, or_assoc] using hb
          -- No value starts with a blank.
          rcases hc with rfl | rfl | rfl | rfl <;>
            simp [readValue, readScalar, words, skipWord, readUnsigned, readWhole, String.text,
              CodePoint.isDigit] at h
      · rintro rfl
        simp [readValue, readScalar, words, skipWord, readUnsigned, readWhole, String.text,
          CodePoint.isDigit] at h

theorem starts_of_reads {d : Nat} {v : Json} (h : Reads d v) (level : Nat) :
    ∃ c r, textAt level v = c :: r ∧ isJsonBlank c = false ∧ c ≠ .char ']' := by
  have hv := h level (2 * (textAt level v).length + 1) [] (Nat.le_refl _) endsNumber_nil
  rw [List.append_nil] at hv
  exact starts_of_readValue hv

theorem skipBlanks_textAt {d : Nat} {v : Json} (h : Reads d v) (level : Nat) (t : Text) :
    skipBlanks (textAt level v ++ t) = textAt level v ++ t := by
  obtain ⟨c, r, hv, hc, -⟩ := starts_of_reads h level
  rw [hv, List.cons_append, skipBlanks, List.dropWhile_cons, hc]
  rfl

/-! ## Scalars -/

theorem readValue_quote (d fuel : Nat) (t : Text) :
    readValue d (fuel + 1) (.char '"' :: t) =
      match readString t with
      | some (s, rest) => .ok (.string s, rest)
      | none => .error .malformed := by
  unfold readValue
  rfl

/-- A text that opens no string, array or object is read as a scalar. -/
theorem readValue_scalar {d fuel : Nat} {t : Text}
    (h : ∀ c ∈ t.head?, c ≠ .char '"' ∧ c ≠ .char '[' ∧ c ≠ .char '\x7b') :
    readValue d (fuel + 1) t = readScalar t := by
  rw [readValue]
  · rintro rest rfl; exact (h _ rfl).1 rfl
  · rintro rest rfl; exact (h _ rfl).2.1 rfl
  · rintro rest rfl; exact (h _ rfl).2.2 rfl

/-- The reader of scalars refuses whatever opens a string, array or object. -/
theorem readValue_of_readScalar {d fuel : Nat} {t : Text} {p : Json × Text}
    (h : readScalar t = .ok p) : readValue d (fuel + 1) t = .ok p := by
  rw [← h]
  apply readValue_scalar
  intro c hc
  cases t with
  | nil => exact absurd hc (by simp)
  | cons c' r =>
    obtain rfl := Option.some.inj hc
    refine ⟨?_, ?_, ?_⟩ <;> rintro rfl <;>
      simp [readScalar, words, skipWord, readUnsigned, readWhole, String.text,
        CodePoint.isDigit] at h

theorem reads_of_readScalar {d : Nat} {v : Json}
    (h : ∀ level rest, EndsNumber rest → readScalar (textAt level v ++ rest) = .ok (v, rest)) :
    Reads d v := by
  intro level fuel rest hf hr
  obtain ⟨fuel, rfl⟩ : ∃ f, fuel = f + 1 := ⟨fuel - 1, by omega⟩
  exact readValue_of_readScalar (h level rest hr)

theorem reads_string {d : Nat} {t : Text} (h : Joined t) : Reads d (.string t) := by
  intro level fuel rest hf _
  obtain ⟨fuel, rfl⟩ : ∃ f, fuel = f + 1 := ⟨fuel - 1, by omega⟩
  have ht : textAt level (.string t) ++ rest =
      .char '"' :: (t.flatMap writePoint ++ .char '"' :: rest) := by
    simp [textAt, layout, Piece.write, writeString]
  have hj : joinHalves t = t := h
  rw [ht, readValue_quote, readString_writeString, hj]

/-! ## Arrays -/

theorem readElements_last {d fuel : Nat} {t rest rest' : Text} {x : Json}
    (hx : readValue d fuel t = .ok (x, rest)) (h : skipBlanks rest = .char ']' :: rest') :
    readElements d (fuel + 1) t = .ok ([x], rest') := by
  rw [readElements, hx]
  simp only [h]

theorem readElements_more {d fuel : Nat} {t rest rest' left : Text} {x : Json} {xs : List Json}
    (hx : readValue d fuel t = .ok (x, rest)) (h : skipBlanks rest = .char ',' :: rest')
    (hxs : readElements d fuel (skipBlanks rest') = .ok (xs, left)) :
    readElements d (fuel + 1) t = .ok (x :: xs, left) := by
  rw [readElements, hx]
  simp only [h, hxs]

/-- The elements of an array read back, up to and with the closing bracket. -/
theorem readElements_elementsAt {d : Nat} {x : Json} {xs : List Json}
    (h : ∀ y ∈ x :: xs, Reads d y) (level fuel below : Nat) (rest : Text)
    (hf : 2 * (textAt level x ++ elementsAt level xs).length + 2 ≤ fuel) :
    readElements d fuel
      (textAt level x ++ (elementsAt level xs ++ (newLineAt below ++ .char ']' :: rest))) =
      .ok (x :: xs, rest) := by
  induction xs generalizing x fuel with
  | nil =>
    simp only [List.length_append] at hf
    obtain ⟨fuel, rfl⟩ : ∃ f, fuel = f + 1 := ⟨fuel - 1, by omega⟩
    have hx := h x List.mem_cons_self level fuel (newLineAt below ++ .char ']' :: rest) (by omega)
      (endsNumber_newLine _)
    refine readElements_last hx ?_
    rw [skipBlanks_newLineAt]
    rfl
  | cons y ys ih =>
    rw [elementsAt_cons] at hf ⊢
    simp only [List.length_append, List.length_cons] at hf
    obtain ⟨fuel, rfl⟩ : ∃ f, fuel = f + 1 := ⟨fuel - 1, by omega⟩
    have hx := h x List.mem_cons_self level fuel
      (.char ',' :: (newLineAt level ++ (textAt level y ++ (elementsAt level ys ++
        (newLineAt below ++ .char ']' :: rest))))) (by omega) (endsNumber_comma _)
    have hys := ih (fun z hz => h z (List.mem_cons_of_mem _ hz)) fuel
      (by simp only [List.length_append]; omega)
    rw [List.cons_append, List.append_assoc, List.append_assoc]
    refine readElements_more hx rfl ?_
    rw [skipBlanks_newLineAt, skipBlanks_textAt (h y (by simp)), hys]

theorem reads_array {d : Nat} {xs : List Json} (h : ∀ x ∈ xs, Reads d x) :
    Reads (d + 1) (.array xs) := by
  intro level fuel rest hf _
  obtain ⟨fuel, rfl⟩ : ∃ f, fuel = f + 1 := ⟨fuel - 1, by omega⟩
  cases xs with
  | nil => rfl
  | cons x xs =>
    rw [textAt_array] at hf ⊢
    simp only [List.length_append, List.length_cons, List.length_nil] at hf
    have hxs := readElements_elementsAt h (level + 1) fuel level rest
      (by simp only [List.length_append]; omega)
    obtain ⟨c, r, hv, -, hc⟩ := starts_of_reads (h x List.mem_cons_self) (level + 1)
    simp only [List.cons_append, List.append_assoc, List.nil_append]
    rw [readValue]
    simp only [skipBlanks_newLineAt, skipBlanks_textAt (h x List.mem_cons_self)]
    rw [hv, List.cons_append] at hxs ⊢
    split
    · rename_i he
      exact absurd (List.cons.inj he).1 hc
    · rw [hxs]

/-! ## Objects -/

/-- The key and the value of a member, read one after the other. -/
theorem readMember {d fuel level : Nat} {k : Text} {x : Json} (hk : Joined k) (hx : Reads d x)
    (hf : 2 * (textAt level x).length + 1 ≤ fuel) {t : Text} (ht : EndsNumber t) :
    ∃ u r, memberAt level k x ++ t = .char '"' :: u ∧
      readString u = some (k, .char ':' :: r) ∧
      readValue d fuel (skipBlanks r) = .ok (x, t) := by
  have hj : joinHalves k = k := hk
  refine ⟨k.flatMap writePoint ++ .char '"' :: .char ':' :: .char ' ' :: (textAt level x ++ t),
    .char ' ' :: (textAt level x ++ t), ?_, ?_, ?_⟩
  · simp only [memberAt, List.cons_append, List.append_assoc]
  · rw [readString_writeString, hj]
  · have hs : skipBlanks (.char ' ' :: (textAt level x ++ t)) = skipBlanks (textAt level x ++ t) := rfl
    rw [hs, skipBlanks_textAt hx]
    exact hx level fuel t hf ht

theorem readMembers_last {d fuel level : Nat} {k : Text} {x : Json} (hk : Joined k)
    (hx : Reads d x) (hf : 2 * (textAt level x).length + 1 ≤ fuel) {t rest : Text}
    (ht : EndsNumber t) (h : skipBlanks t = .char '\x7d' :: rest) :
    readMembers d (fuel + 1) (memberAt level k x ++ t) = .ok ([(k, x)], rest) := by
  obtain ⟨u, r, hm, hu, hv⟩ := readMember hk hx hf ht
  have hc : skipBlanks (.char ':' :: r) = .char ':' :: r := rfl
  rw [hm, readMembers, hu]
  simp only [hc, hv, h]

theorem readMembers_more {d fuel level : Nat} {k : Text} {x : Json} (hk : Joined k)
    (hx : Reads d x) (hf : 2 * (textAt level x).length + 1 ≤ fuel) {t rest left : Text}
    {ms : List (Text × Json)} (ht : EndsNumber t) (h : skipBlanks t = .char ',' :: rest)
    (hms : readMembers d fuel (skipBlanks rest) = .ok (ms, left)) :
    readMembers d (fuel + 1) (memberAt level k x ++ t) = .ok ((k, x) :: ms, left) := by
  obtain ⟨u, r, hm, hu, hv⟩ := readMember hk hx hf ht
  have hc : skipBlanks (.char ':' :: r) = .char ':' :: r := rfl
  rw [hm, readMembers, hu]
  simp only [hc, hv, h, hms]

/-- The members of an object read back, up to and with the closing brace. -/
theorem readMembers_membersAt {d : Nat} {k : Text} {x : Json} {ms : List (Text × Json)}
    (hj : ∀ m ∈ (k, x) :: ms, Joined m.1) (h : ∀ m ∈ (k, x) :: ms, Reads d m.2)
    (level fuel below : Nat) (rest : Text)
    (hf : 2 * (memberAt level k x ++ membersAt level ms).length + 2 ≤ fuel) :
    readMembers d fuel
      (memberAt level k x ++ (membersAt level ms ++ (newLineAt below ++ .char '\x7d' :: rest))) =
      .ok ((k, x) :: ms, rest) := by
  have hk : Joined k := hj (k, x) List.mem_cons_self
  have hx : Reads d x := h (k, x) List.mem_cons_self
  have hlen : (textAt level x).length ≤ (memberAt level k x).length := by
    simp only [memberAt, List.length_append, List.length_cons]
    omega
  induction ms generalizing k x fuel with
  | nil =>
    simp only [List.length_append] at hf
    obtain ⟨fuel, rfl⟩ : ∃ f, fuel = f + 1 := ⟨fuel - 1, by omega⟩
    refine readMembers_last hk hx (by omega) (endsNumber_newLine _) ?_
    exact skipBlanks_newLineAt below (.char '\x7d' :: rest)
  | cons m ms ih =>
    obtain ⟨l, y⟩ := m
    rw [membersAt_cons] at hf ⊢
    simp only [List.length_append, List.length_cons] at hf
    obtain ⟨fuel, rfl⟩ : ∃ f, fuel = f + 1 := ⟨fuel - 1, by omega⟩
    have hms := ih (fun n hn => hj n (List.mem_cons_of_mem _ hn))
      (fun n hn => h n (List.mem_cons_of_mem _ hn)) fuel
      (by simp only [List.length_append]; omega) (hj (l, y) (by simp)) (h (l, y) (by simp))
      (by simp only [memberAt, List.length_append, List.length_cons]; omega)
    rw [List.cons_append, List.append_assoc, List.append_assoc]
    refine readMembers_more hk hx (by omega) (endsNumber_comma _) rfl ?_
    rw [skipBlanks_newLineAt]
    exact hms

theorem reads_object {d : Nat} {ms : Entries Text Json} (hk : ms.keys.Nodup)
    (hj : ∀ k ∈ ms.keys, Joined k) (h : ∀ m ∈ ms, Reads d m.2) : Reads (d + 1) (.object ms) := by
  intro level fuel rest hf _
  obtain ⟨fuel, rfl⟩ : ∃ f, fuel = f + 1 := ⟨fuel - 1, by omega⟩
  cases ms with
  | nil => rfl
  | cons m ms =>
    obtain ⟨k, x⟩ := m
    rw [textAt_object] at hf ⊢
    simp only [List.length_append, List.length_cons, List.length_nil] at hf
    have hms := readMembers_membersAt (fun m hm => hj m.1 (List.mem_map.2 ⟨m, hm, rfl⟩)) h
      (level + 1) fuel level rest (by simp only [List.length_append]; omega)
    have hs : ∀ t, skipBlanks (memberAt (level + 1) k x ++ t) = memberAt (level + 1) k x ++ t :=
      fun t => rfl
    simp only [List.cons_append, List.append_assoc, List.nil_append]
    rw [readValue]
    simp only [skipBlanks_newLineAt, hs]
    split
    · rename_i he
      exact absurd (List.cons.inj he).1 (by decide)
    · rw [hms]
      simp only [Entries.ofList_of_nodup hk]

/-! ## Every restorable value -/

theorem Restorable.reads {d : Nat} {v : Json} (h : Restorable d v) : Reads d v := by
  induction h with
  | null =>
    apply reads_of_readScalar
    intro level rest _
    rw [← readScalar_null rest]
    simp [textAt, layout, Piece.write]
  | bool b =>
    apply reads_of_readScalar
    intro level rest _
    rw [← readScalar_bool b rest]
    simp [textAt, layout, Piece.write]
  | int hl =>
    apply reads_of_readScalar
    intro level rest hr
    rw [← readScalar_integer hl hr]
    simp [textAt, layout, Piece.write]
  | float hx =>
    apply reads_of_readScalar
    intro level rest hr
    rw [← hx rest hr]
    simp [textAt, layout, Piece.write]
  | string ht => exact reads_string ht
  | array _ ih => exact reads_array ih
  | object hk hj _ ih => exact reads_object hk hj ih

/-- **The text of a file that holds an object reads back as the object.** -/
theorem read_document {ms : Entries Text Json} (h : Restorable depthLimit (.object ms)) :
    read (document ms) = .ok (.object ms) := by
  have hd : document ms = textAt 0 (.object ms) ++ [.char '\n'] := rfl
  have hr := h.reads 0 (2 * (textAt 0 (.object ms) ++ [CodePoint.char '\n']).length + 1) [.char '\n']
    (by rw [List.length_append]; omega) (endsNumber_newLine [])
  rw [hd, read, skipBlanks_textAt h.reads, hr]
  rfl

end Json

end SearchQuery
