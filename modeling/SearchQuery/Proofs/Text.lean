import Mathlib.Data.List.Chain
import Mathlib.Data.List.DropRight
import Mathlib.Data.List.Infix
import SearchQuery.Decimal.Digits

/-!
# What texts are made of

Properties of texts and what they are good for. A text without line feeds is one line, and one
without blanks is not changed by `trim`, which does nothing the second time either (`trim_trim`)
and gives the same for a text between further blanks (`trim_append`).

**Cuts.** A cut finds the place where two texts were joined when the mark is not in the first one;
for two dots it is enough that they are not made up earlier (`CutsBehind`). The texts that are not
cut at two dots are those whose dots stand apart (`DotsApart`), which joining keeps where no dot
follows the seam and blanks at the ends do not change (`dotsApart_trim`).
-/

namespace SearchQuery

/-! ## One line -/

/-- A text without a line feed. -/
def OneLine (t : Text) : Prop := .char '\n' ∉ t

instance (t : Text) : Decidable (OneLine t) := inferInstanceAs (Decidable (_ ∉ _))

@[simp] theorem oneLine_nil : OneLine [] := List.not_mem_nil

@[simp] theorem oneLine_cons {c : CodePoint} {t : Text} :
    OneLine (c :: t) ↔ c ≠ .char '\n' ∧ OneLine t := by
  rw [OneLine, List.mem_cons, not_or, ne_comm]
  exact Iff.rfl

@[simp] theorem oneLine_append {t u : Text} : OneLine (t ++ u) ↔ OneLine t ∧ OneLine u := by
  rw [OneLine, List.mem_append, not_or]
  exact Iff.rfl

/-! ## No blanks -/

def Visible (t : Text) : Prop := ∀ c ∈ t, isBlank c = false

instance (t : Text) : Decidable (Visible t) := inferInstanceAs (Decidable (∀ c ∈ t, _))

@[simp] theorem visible_nil : Visible [] := fun _ h => absurd h List.not_mem_nil

@[simp] theorem visible_cons {c : CodePoint} {t : Text} :
    Visible (c :: t) ↔ isBlank c = false ∧ Visible t := List.forall_mem_cons

@[simp] theorem visible_append {t u : Text} : Visible (t ++ u) ↔ Visible t ∧ Visible u :=
  List.forall_mem_append

theorem dropWhile_isBlank {t : Text} (h : Visible t) : t.dropWhile isBlank = t := by
  cases t with
  | nil => rfl
  | cons c r => rw [List.dropWhile_cons, h c List.mem_cons_self]; rfl

theorem Visible.trim_eq {t : Text} (h : Visible t) : trim t = t := by
  have hreverse : Visible t.reverse := fun c hc => h c (List.mem_reverse.1 hc)
  rw [trim, trimFront, dropWhile_isBlank h, trimBack, dropWhile_isBlank hreverse,
    List.reverse_reverse]

/-! ## Blanks at the ends -/

theorem trimBack_eq (t : Text) : trimBack t = t.rdropWhile isBlank := rfl

theorem head?_trimFront {c : CodePoint} {t : Text} (h : (trimFront t).head? = some c) :
    isBlank c = false := by
  have hnot := List.head?_dropWhile_not isBlank t
  rwa [← trimFront, h] at hnot

/-- A text that starts with something visible keeps its start. -/
theorem trim_cons {c : CodePoint} (h : isBlank c = false) (t : Text) :
    trim (c :: t) = c :: trimBack t := by
  have hfront : trimFront (c :: t) = c :: t := by simp [trimFront, h]
  rw [trim, hfront, trimBack, List.reverse_cons, List.dropWhile_append]
  split
  · rename_i hnil
    simp [h, trimBack, List.isEmpty_iff.1 hnil]
  · simp [trimBack]

/-- **Trimming twice** is trimming once. -/
@[simp] theorem trim_trim (t : Text) : trim (trim t) = trim t := by
  have hfront : trim (trimFront t) = trim t := by
    rw [trim, trim, trimFront, trimFront, List.dropWhile_idempotent]
  cases hf : trimFront t with
  | nil =>
    rw [← hfront, hf]
    rfl
  | cons c r =>
    have hc : isBlank c = false := head?_trimFront (by rw [hf]; rfl)
    rw [← hfront, hf, trim_cons hc, trim_cons hc, trimBack_eq, trimBack_eq,
      List.rdropWhile_idempotent]

/-- A text is what `trim` leaves of it, between blanks. -/
theorem exists_trim (t : Text) :
    ∃ front back : Text, (∀ c ∈ front, isBlank c = true) ∧ (∀ c ∈ back, isBlank c = true) ∧
      t = front ++ (trim t ++ back) := by
  refine ⟨t.takeWhile isBlank, (trimFront t).rtakeWhile isBlank, fun c hc => ?_, fun c hc => ?_, ?_⟩
  · exact List.mem_takeWhile_imp hc
  · exact List.mem_rtakeWhile_imp hc
  · rw [trim, trimBack_eq, List.rdropWhile_append_rtakeWhile, trimFront,
      List.takeWhile_append_dropWhile]

theorem trimFront_append {front : Text} (h : ∀ c ∈ front, isBlank c = true) (t : Text) :
    trimFront (front ++ t) = trimFront t := List.dropWhile_append_of_pos h

theorem trimBack_append {back : Text} (h : ∀ c ∈ back, isBlank c = true) (t : Text) :
    trimBack (t ++ back) = trimBack t := by
  rw [trimBack, List.reverse_append,
    List.dropWhile_append_of_pos fun c hc => h c (List.mem_reverse.1 hc), trimBack]

/-- Blanks at the ends make no difference. -/
theorem trim_append {front back : Text} (hfront : ∀ c ∈ front, isBlank c = true)
    (hback : ∀ c ∈ back, isBlank c = true) (t : Text) : trim (front ++ (t ++ back)) = trim t := by
  rw [trim, trimFront_append hfront, trim, trimFront, List.dropWhile_append]
  split
  · rename_i hnil
    have hblank : trimFront back = [] := List.dropWhile_eq_nil_iff.2 hback
    rw [← trimFront, hblank, trimFront, List.isEmpty_iff.1 hnil]
  · exact trimBack_append hback _

/-! ## Sizes -/

theorem byteCount_append (t u : Text) : byteCount (t ++ u) = byteCount t + byteCount u := by
  induction t with
  | nil => exact (Nat.zero_add _).symm
  | cons c t ih => rw [List.cons_append, byteCount, byteCount, ih, Nat.add_assoc]

theorem byteCount_pos (c : CodePoint) : 0 < c.byteCount := by
  cases c with
  | char c => exact c.utf8Size_pos
  | half n => exact Nat.succ_pos 2

/-- A text that takes no bytes is empty. -/
theorem eq_nil_of_byteCount {t : Text} (h : byteCount t = 0) : t = [] := by
  cases t with
  | nil => rfl
  | cons c r =>
    have hc := byteCount_pos c
    rw [byteCount] at h
    omega

/-! ## Numerals -/

theorem not_mem_fixed {c : CodePoint} (h : c.isDigit = false) (width n : Nat) :
    c ∉ fixed width n := by
  intro hc
  simp [isDigit_of_mem_fixed hc] at h

@[simp] theorem oneLine_fixed (width n : Nat) : OneLine (fixed width n) := not_mem_fixed rfl _ _

theorem toNat_of_isDigit {c : CodePoint} (h : c.isDigit = true) : 48 ≤ c.toNat ∧ c.toNat ≤ 57 := by
  cases c with
  | half n => simp [CodePoint.isDigit] at h
  | char c => simpa [Char.isDigit, UInt32.le_iff_toNat_le] using h

theorem isBlank_of_isDigit {c : CodePoint} (h : c.isDigit = true) : isBlank c = false := by
  have hc := toNat_of_isDigit h
  have hranges : ∀ r ∈ blankRanges, r.2 < 48 ∨ 57 < r.1 := by decide
  rw [isBlank, CodeRanges.covers, List.any_eq_false]
  intro r hr
  have hr := hranges r hr
  simp only [Bool.and_eq_true, decide_eq_true_eq]
  omega

@[simp] theorem visible_fixed (width n : Nat) : Visible (fixed width n) :=
  fun _ h => isBlank_of_isDigit (isDigit_of_mem_fixed h)

theorem digitChar_of_mem_fixedHex {width n : Nat} {c : CodePoint} (h : c ∈ fixedHex width n) :
    ∃ d, d < 16 ∧ c = .char (Nat.digitChar d) := by
  induction width with
  | zero => exact absurd h List.not_mem_nil
  | succ width ih =>
    rcases List.mem_cons.1 h with rfl | h
    · exact ⟨_, Nat.mod_lt _ (by decide), rfl⟩
    · exact ih h

theorem ofDigits_append_fixed (t : Text) (width n : Nat) :
    ofDigits (t ++ fixed width n) =
      ofDigits t * Nat.pow 10 width + n % Nat.pow 10 width := by
  induction width generalizing t with
  | zero => simp [fixed, Nat.mod_one]
  | succ width ih =>
    have hsplit : t ++ fixed (width + 1) n =
        (t ++ [digit (n / Nat.pow 10 width)]) ++ fixed width n := by
      rw [List.append_assoc]
      rfl
    have hdigit : ofDigits (t ++ [digit (n / Nat.pow 10 width)]) =
        ofDigits t * 10 + n / Nat.pow 10 width % 10 := by
      simp [ofDigits]
    rw [hsplit, ih, hdigit, places_succ]

/-- A numeral of fixed width reads back as a run of digits. -/
theorem ofDigits_fixed {width n : Nat} (h : n < Nat.pow 10 width) :
    ofDigits (fixed width n) = n := by
  have h' := ofDigits_append_fixed [] width n
  have hnil : ofDigits [] = 0 := rfl
  rwa [List.nil_append, Nat.mod_eq_of_lt h, hnil, Nat.zero_mul, Nat.zero_add] at h'

/-! ## Cuts -/

theorem cutAt_append {mark : CodePoint} {front : Text} (h : mark ∉ front) (back : Text) :
    cutAt mark (front ++ mark :: back) = some (front, back) := by
  induction front with
  | nil => simp [cutAt]
  | cons c r ih =>
    rw [List.mem_cons, not_or] at h
    simp [cutAt, Ne.symm h.1, ih h.2]

/-- A mark ends the part before it. -/
theorem pieces_append {mark : CodePoint} {front : Text} (h : mark ∉ front) (back : Text) :
    pieces mark (front ++ mark :: back) = front :: pieces mark back := by
  induction front with
  | nil => simp [pieces]
  | cons c r ih =>
    rw [List.mem_cons, not_or] at h
    simp [pieces, Ne.symm h.1, ih h.2]

/-- Two dots behind a text are the first two in a row, whatever follows them. -/
def CutsBehind (front : Text) : Prop :=
  ∀ back, cutAtDots (front ++ .char '.' :: .char '.' :: back) = some (front, back)

theorem cutsBehind_nil : CutsBehind [] := fun _ => rfl

theorem CutsBehind.cons {c : CodePoint} {t : Text} (hc : c ≠ .char '.') (h : CutsBehind t) :
    CutsBehind (c :: t) := by
  intro back
  rw [List.cons_append, cutAtDots, h back]
  · rfl
  · rintro r hr -
    exact hc hr

theorem CutsBehind.append {t u : Text} (ht : .char '.' ∉ t) (hu : CutsBehind u) :
    CutsBehind (t ++ u) := by
  induction t with
  | nil => exact hu
  | cons c r ih =>
    rw [List.mem_cons, not_or] at ht
    exact (ih ht.2).cons (Ne.symm ht.1)

theorem cutsBehind_of_not_mem {t : Text} (h : .char '.' ∉ t) : CutsBehind t := by
  simpa using cutsBehind_nil.append h

/-- One dot does no harm where something else follows it. -/
theorem CutsBehind.dot {c : CodePoint} {t : Text} (hc : c ≠ .char '.') (h : CutsBehind (c :: t)) :
    CutsBehind (.char '.' :: c :: t) := by
  intro back
  have hback := h back
  rw [List.cons_append] at hback ⊢
  rw [List.cons_append, cutAtDots, hback]
  · rfl
  · rintro r - hr
    exact hc (List.cons.inj hr).1

/-! ## Two dots in a row -/

/-- No dot is followed by another. -/
def DotsApart (t : Text) : Prop := t.IsChain fun c d => c = .char '.' → d ≠ .char '.'

theorem dotsApart_of_not_mem {t : Text} (h : .char '.' ∉ t) : DotsApart t := by
  refine List.isChain_iff_forall_rel_of_append_cons_cons.2 ?_
  rintro c d front back rfl rfl
  simp at h

/-- What stands in front without a dot makes no difference. -/
theorem dotsApart_append_left {t u : Text} (h : .char '.' ∉ t) :
    DotsApart (t ++ u) ↔ DotsApart u := by
  refine List.isChain_append.trans ⟨fun ⟨_, hu, _⟩ => hu, fun hu => ⟨dotsApart_of_not_mem h, hu, ?_⟩⟩
  rintro c hc d - rfl
  exact absurd (List.mem_of_getLast? hc) h

theorem DotsApart.append {t u : Text} (ht : DotsApart t) (hu : DotsApart u)
    (hhead : u.head? ≠ some (.char '.')) : DotsApart (t ++ u) := by
  refine List.IsChain.append ht hu ?_
  rintro c - d hd - rfl
  exact hhead hd

/-- Nor does what stands behind. -/
theorem dotsApart_append_right {t u : Text} (h : .char '.' ∉ u) :
    DotsApart (t ++ u) ↔ DotsApart t := by
  refine ⟨List.IsChain.left_of_append, fun ht => ht.append (dotsApart_of_not_mem h) ?_⟩
  exact fun hhead => h (List.mem_of_head? hhead)

theorem not_isBlank_dot : isBlank (.char '.') = false := rfl

theorem dotsApart_trim {t : Text} : DotsApart (trim t) ↔ DotsApart t := by
  obtain ⟨front, back, hfront, hback, ht⟩ := exists_trim t
  have hnot : ∀ u : Text, (∀ c ∈ u, isBlank c = true) → .char '.' ∉ u := by
    intro u hu hdot
    exact Bool.noConfusion (not_isBlank_dot.symm.trans (hu _ hdot))
  rw [ht, dotsApart_append_left (hnot _ hfront), dotsApart_append_right (hnot _ hback), ← ht]

/-- Two dots in a row are a part of every other text. -/
theorem dots_infix_iff {t : Text} : "..".text <:+: t ↔ ¬ DotsApart t := by
  rw [DotsApart, List.isChain_iff_forall_rel_of_append_cons_cons]
  constructor
  · rintro ⟨front, back, h⟩ hapart
    have ht : t = front ++ .char '.' :: .char '.' :: back := by simp [← h, String.text]
    exact hapart ht rfl rfl
  · intro h
    simp only [not_forall, not_not] at h
    obtain ⟨c, d, front, back, ht, rfl, rfl⟩ := h
    exact ⟨front, back, by simp [ht, String.text]⟩

theorem cutAtDots_eq_none_iff {t : Text} : cutAtDots t = none ↔ DotsApart t := by
  fun_induction cutAtDots t with
  | case1 r => simp [DotsApart]
  | case2 c r hdots ih =>
    rw [Option.map_eq_none_iff, ih, DotsApart, DotsApart, List.isChain_cons]
    refine ⟨fun hr => ⟨?_, hr⟩, And.right⟩
    rintro d hd rfl rfl
    obtain ⟨r, rfl⟩ := List.head?_eq_some_iff.1 hd
    exact hdots r rfl rfl
  | case3 => simp [DotsApart]

/-- Two dots behind a text come first when none of its dots is followed by another. -/
theorem cutsBehind_of_dotsApart {t : Text} (h : DotsApart (t ++ [.char '.'])) : CutsBehind t := by
  induction t with
  | nil => exact cutsBehind_nil
  | cons c r ih =>
    obtain ⟨hhead, hr⟩ := List.isChain_cons.1 h
    by_cases hc : c = .char '.'
    · subst hc
      cases r with
      | nil => exact absurd rfl (hhead (.char '.') rfl rfl)
      | cons d r => exact (ih hr).dot (hhead d rfl rfl)
    · exact (ih hr).cons hc

/-- **A cut is made at the first two dots in a row**: there are none before them. -/
theorem cutAtDots_eq_some_iff {t front back : Text} :
    cutAtDots t = some (front, back) ↔
      t = front ++ "..".text ++ back ∧ ¬ "..".text <:+: front ++ [.char '.'] := by
  rw [dots_infix_iff, not_not, List.append_assoc]
  constructor
  · intro h
    refine ⟨cutAtDots_eq_some h, ?_⟩
    fun_induction cutAtDots t generalizing front with
    | case1 r =>
      obtain ⟨rfl, -⟩ := Prod.mk.inj (Option.some.inj h)
      exact List.isChain_singleton _
    | case2 c r hdots ih =>
      obtain ⟨⟨f, b⟩, hp, heq⟩ := Option.map_eq_some_iff.1 h
      obtain ⟨rfl, rfl⟩ := Prod.mk.inj heq
      refine List.isChain_cons.2 ⟨?_, ih hp⟩
      -- Two dots here would have been cut at.
      rintro d hd rfl rfl
      have hr := cutAtDots_eq_some hp
      cases f with
      | nil => exact hdots _ rfl hr
      | cons e f =>
        obtain rfl : e = .char '.' := Option.some.inj hd
        exact hdots _ rfl hr
    | case3 => cases h
  · rintro ⟨rfl, h⟩
    exact cutsBehind_of_dotsApart h back

end SearchQuery
