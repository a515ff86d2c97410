import SearchQuery.Proofs.Text
import SearchQuery.Qualifier

/-!
# Values between commas

What `label` and `author` take: several texts with commas between them.

**Theorem (`Qualifier.fragment_values`).** A value is refused exactly when it is made of commas and
blanks. Every other value stands for its parts between commas, without the blanks around them and
without the blank ones, and what is made of them can be given as a value again. Whatever blanks
stand around some items and whatever blank parts among them (`Padded`), the fragment is that of the
items.

A value is cut as `List.splitOn` cuts (`pieces_eq_splitOn`), so texts without commas come back from
between commas. Blanks around a text make no difference to `trim`, and a text is blank when `trim`
leaves nothing of it (`trim_eq_nil_iff`); so what is read from padded items is the items
(`valuesOf_joined`), which pad themselves.
-/

namespace SearchQuery

/-! ## Parts between marks -/

theorem joined_eq_intercalate (glue : Text) (ts : List Text) :
    joined glue ts = glue.intercalate ts := by
  fun_induction joined glue ts with
  | case1 => rfl
  | case2 t => rw [List.intercalate_singleton]
  | case3 t u r ih => rw [ih, List.intercalate_cons_cons]

theorem pieces_eq_splitOn (mark : CodePoint) (t : Text) : pieces mark t = t.splitOn mark := by
  induction t with
  | nil => rw [List.splitOn_nil, pieces]
  | cons c r ih =>
    rw [pieces, List.splitOn, List.splitOnP_cons_eq_if_modifyHead, ← List.splitOn, ← ih]
    by_cases hc : c = mark
    · simp [hc]
    · cases hp : pieces mark r with
      | nil => exact absurd hp (pieces_ne_nil mark r)
      | cons p ps => simp [hc]

theorem pieces_joined {mark : CodePoint} {ts : List Text} (hne : ts ≠ [])
    (h : ∀ t ∈ ts, mark ∉ t) : pieces mark (joined [mark] ts) = ts := by
  rw [pieces_eq_splitOn, joined_eq_intercalate, List.splitOn_intercalate mark h hne]

theorem not_mem_of_mem_pieces {mark : CodePoint} {t p : Text} (h : p ∈ pieces mark t) :
    mark ∉ p := by
  induction t generalizing p with
  | nil =>
    obtain rfl := List.mem_singleton.1 h
    exact List.not_mem_nil
  | cons c r ih =>
    rw [pieces] at h
    by_cases hc : c = mark
    · rw [if_pos hc] at h
      rcases List.mem_cons.1 h with rfl | h
      · exact List.not_mem_nil
      · exact ih h
    · rw [if_neg hc] at h
      cases hp : pieces mark r with
      | nil => exact absurd hp (pieces_ne_nil mark r)
      | cons q qs =>
        rw [hp] at h ih
        rcases List.mem_cons.1 h with rfl | h
        · rw [List.mem_cons, not_or]
          exact ⟨Ne.symm hc, ih List.mem_cons_self⟩
        · exact ih (List.mem_cons_of_mem _ h)

/-- What holds of the mark and of every text holds of what is joined, and the other way round. -/
theorem forall_mem_joined {P : CodePoint → Prop} {mark : CodePoint} (hmark : P mark)
    (ts : List Text) : (∀ c ∈ joined [mark] ts, P c) ↔ ∀ t ∈ ts, ∀ c ∈ t, P c := by
  fun_induction joined [mark] ts with
  | case1 => simp
  | case2 t => simp
  | case3 t u r ih =>
    rw [List.append_assoc, List.forall_mem_append, List.singleton_append, List.forall_mem_cons, ih]
    constructor
    · rintro ⟨ht, -, hr⟩
      exact List.forall_mem_cons.2 ⟨ht, hr⟩
    · intro h
      obtain ⟨ht, hr⟩ := List.forall_mem_cons.1 h
      exact ⟨ht, hmark, hr⟩

/-! ## Blank parts -/

theorem trim_eq_nil_iff {t : Text} : trim t = [] ↔ ∀ c ∈ t, isBlank c = true := by
  constructor
  · intro h
    obtain ⟨front, back, hfront, hback, ht⟩ := exists_trim t
    rw [h, List.nil_append] at ht
    rw [ht]
    exact List.forall_mem_append.2 ⟨hfront, hback⟩
  · intro h
    have hnil := trim_append h (fun c hc => absurd hc List.not_mem_nil) []
    rwa [List.append_nil, List.append_nil, trim_nil] at hnil

theorem mem_of_mem_trim {c : CodePoint} {t : Text} (h : c ∈ trim t) : c ∈ t := by
  obtain ⟨front, back, -, -, ht⟩ := exists_trim t
  rw [ht]
  exact List.mem_append_right _ (List.mem_append_left _ h)

theorem valuesOf_eq_nil_iff {value : Text} :
    valuesOf value = [] ↔ ∀ c ∈ value, c = .char ',' ∨ isBlank c = true := by
  have hblank : valuesOf value = [] ↔ ∀ p ∈ pieces ',' value, ∀ c ∈ p, isBlank c = true := by
    simp [valuesOf, trim_eq_nil_iff]
  have hvalue : (∀ c ∈ joined [.char ','] (pieces ',' value), c = .char ',' ∨ isBlank c = true) ↔
      ∀ p ∈ pieces ',' value, ∀ c ∈ p, c = .char ',' ∨ isBlank c = true :=
    forall_mem_joined (.inl rfl) _
  rw [joined_pieces] at hvalue
  rw [hblank, hvalue]
  constructor
  · intro h p hp c hc
    exact .inr (h p hp c hc)
  · intro h p hp c hc
    rcases h p hp c hc with rfl | h
    · exact absurd hc (not_mem_of_mem_pieces hp)
    · exact h

/-- A text that stands between commas as it is: not blank, without blanks around it and without
commas. -/
structure IsItem (t : Text) : Prop where
  ne_nil : t ≠ []
  trimmed : trim t = t
  no_comma : .char ',' ∉ t

theorem isItem_of_mem_valuesOf {value t : Text} (h : t ∈ valuesOf value) : IsItem t := by
  obtain ⟨hmap, hne⟩ := List.mem_filter.1 h
  obtain ⟨p, hp, rfl⟩ := List.mem_map.1 hmap
  exact ⟨of_decide_eq_true hne, trim_trim p,
    fun hc => not_mem_of_mem_pieces hp (mem_of_mem_trim hc)⟩

/-! ## Padded items -/

/-- Items with blanks around them, and blank parts before, behind and among them. -/
inductive Padded : List Text → List Text → Prop
  | nil : Padded [] []
  | blank {items parts : List Text} {t : Text} (ht : ∀ c ∈ t, isBlank c = true)
      (h : Padded items parts) : Padded items (t :: parts)
  | item {items parts : List Text} {front back : Text} (hfront : ∀ c ∈ front, isBlank c = true)
      (hback : ∀ c ∈ back, isBlank c = true) (t : Text) (h : Padded items parts) :
      Padded (t :: items) ((front ++ (t ++ back)) :: parts)

namespace Padded

variable {items parts : List Text}

theorem self (items : List Text) : Padded items items := by
  have hnil : ∀ c ∈ ([] : Text), isBlank c = true := fun c hc => absurd hc List.not_mem_nil
  induction items with
  | nil => exact .nil
  | cons t items ih => simpa using Padded.item hnil hnil t ih

theorem ne_nil (h : Padded items parts) (hne : items ≠ []) : parts ≠ [] := by
  cases h with
  | nil => exact hne
  | blank ht h => exact List.cons_ne_nil _ _
  | item hfront hback t h => exact List.cons_ne_nil _ _

theorem no_comma (h : Padded items parts) (hitems : ∀ t ∈ items, IsItem t) :
    ∀ p ∈ parts, .char ',' ∉ p := by
  have hblank : ∀ t : Text, (∀ c ∈ t, isBlank c = true) → .char ',' ∉ t :=
    fun t ht hc => Bool.noConfusion (ht _ hc)
  induction h with
  | nil => exact fun p hp => absurd hp List.not_mem_nil
  | blank ht _ ih => exact List.forall_mem_cons.2 ⟨hblank _ ht, ih hitems⟩
  | item hfront hback t _ ih =>
    obtain ⟨ht, hitems⟩ := List.forall_mem_cons.1 hitems
    refine List.forall_mem_cons.2 ⟨?_, ih hitems⟩
    simp only [List.mem_append, not_or]
    exact ⟨hblank _ hfront, ht.no_comma, hblank _ hback⟩

/-- Without their blanks, the parts that are not blank are the items. -/
theorem filter_trim (h : Padded items parts) (hitems : ∀ t ∈ items, IsItem t) :
    (parts.map trim).filter (· ≠ []) = items := by
  induction h with
  | nil => rfl
  | blank ht _ ih =>
    rw [List.map_cons, trim_eq_nil_iff.2 ht, List.filter_cons_of_neg (by simp), ih hitems]
  | item hfront hback t _ ih =>
    obtain ⟨ht, hitems⟩ := List.forall_mem_cons.1 hitems
    rw [List.map_cons, trim_append hfront hback, ht.trimmed,
      List.filter_cons_of_pos (by simpa using ht.ne_nil), ih hitems]

end Padded

/-- **What is read from padded items** is the items. -/
theorem valuesOf_joined {items parts : List Text} (h : Padded items parts) (hne : items ≠ [])
    (hitems : ∀ t ∈ items, IsItem t) : valuesOf (joined [.char ','] parts) = items := by
  rw [valuesOf, pieces_joined (h.ne_nil hne) (h.no_comma hitems), h.filter_trim hitems]

/-! ## Fragments -/

namespace Qualifier

theorem fragment_of_values {key : Key} (hkey : key = .label ∨ key = .author) (value : Text)
    (excluded timezoned : Bool) :
    (Qualifier.mk key.name value excluded).fragment timezoned =
      if valuesOf value = [] then .error (.noValue key)
      else .ok ⟨.tag key.name (joined [.char ','] (valuesOf value)), excluded⟩ := by
  have hterm : key.term timezoned value =
      (someValues key value).map fun values => .tag key.name (joined [.char ','] values) := by
    rcases hkey with rfl | rfl <;> rfl
  rw [fragment_eq, Key.ofName, Key.ofName?_name]
  simp only [bind, Except.bind, hterm, someValues]
  split <;> rfl

/-- **Values between commas** give their parts without blanks, or nothing when there is none. -/
theorem fragment_values {key : Key} (hkey : key = .label ∨ key = .author) (value : Text)
    (excluded timezoned : Bool) :
    let read := fun v => (Qualifier.mk key.name v excluded).fragment timezoned
    let parts := ((value.splitOn (.char ',')).map trim).filter (· ≠ [])
    let kept := List.intercalate [.char ','] parts
    ((∃ e, read value = .error e) ↔ ∀ c ∈ value, c = .char ',' ∨ isBlank c = true) ∧
    (∀ e, read value = .error e → e = .noValue key) ∧
    (∀ f, read value = .ok f →
      f = ⟨.tag key.name kept, excluded⟩ ∧ read kept = .ok f ∧
        ∀ p ∈ kept.splitOn (.char ','), p ≠ [] ∧ trim p = p) ∧
    ∀ items padded, items ≠ [] → (∀ t ∈ items, t ≠ [] ∧ trim t = t ∧ .char ',' ∉ t) →
      Padded items padded → value = List.intercalate [.char ','] padded →
      (key = .label → read value = .ok ⟨.label items, excluded⟩) ∧
      (key = .author → read value = .ok ⟨.author items, excluded⟩) := by
  intro read parts kept
  have hparts : valuesOf value = parts := by rw [valuesOf, pieces_eq_splitOn]
  have hread : ∀ v, read v = if valuesOf v = [] then .error (.noValue key)
      else .ok ⟨.tag key.name (joined [.char ','] (valuesOf v)), excluded⟩ :=
    fun v => fragment_of_values hkey v excluded timezoned
  have htaken : ∀ {items padded : List Text}, items ≠ [] → (∀ t ∈ items, IsItem t) →
      Padded items padded → read (List.intercalate [.char ','] padded) =
        .ok ⟨.tag key.name (joined [.char ','] items), excluded⟩ := by
    intro items padded hne hitems h
    rw [hread, ← joined_eq_intercalate, valuesOf_joined h hne hitems, if_neg hne]
  refine ⟨?_, ?_, ?_, ?_⟩
  · rw [← valuesOf_eq_nil_iff, hread]
    split
    · rename_i h
      exact iff_of_true ⟨_, rfl⟩ h
    · rename_i h
      exact iff_of_false (fun ⟨_, he⟩ => nomatch he) h
  · intro e he
    rw [hread] at he
    split at he
    · exact (Except.error.inj he).symm
    · cases he
  · intro f hf
    rw [hread, hparts, joined_eq_intercalate] at hf
    split at hf
    · cases hf
    · rename_i hne
      -- What is kept is a list of items, so it reads as itself.
      have hitems : ∀ t ∈ parts, IsItem t := by
        rw [← hparts]
        exact fun t => isItem_of_mem_valuesOf
      obtain rfl := Except.ok.inj hf
      refine ⟨rfl, ?_, ?_⟩
      · rw [htaken hne hitems (.self parts), joined_eq_intercalate]
      · rw [List.splitOn_intercalate _ (fun t ht => (hitems t ht).no_comma) hne]
        exact fun t ht => ⟨(hitems t ht).ne_nil, (hitems t ht).trimmed⟩
  · rintro items padded hne hitems h rfl
    have hok := htaken hne (fun t ht => ⟨(hitems t ht).1, (hitems t ht).2.1, (hitems t ht).2.2⟩) h
    refine ⟨?_, ?_⟩
    · rintro rfl
      exact hok
    · rintro rfl
      exact hok

/-- Two labels between blanks of several kinds, one of them with blanks inside, and blank parts
around them; then an author of commas and blanks. -/
theorem fragment_values_two :
    let items := ["bug".text, "good first issue".text]
    let padded := [" bug ".text, "".text, "\t".text, "\u3000good first issue".text, " ".text]
    let value := " bug ,,\t,\u3000good first issue, ".text
    (Key.label = .label ∨ Key.label = .author) ∧ (Key.author = .label ∨ Key.author = .author) ∧
      (items ≠ [] ∧ (∀ t ∈ items, t ≠ [] ∧ trim t = t ∧ .char ',' ∉ t) ∧ Padded items padded ∧
        value = List.intercalate [.char ','] padded) ∧
      (Qualifier.mk "label".text value true).fragment false = .ok ⟨.label items, true⟩ ∧
      ∃ e, (Qualifier.mk "author".text " ,\t".text false).fragment false = .error e := by
  intro items padded value
  have hlabel : Key.label = .label ∨ Key.label = .author := .inl rfl
  have hauthor : Key.author = .label ∨ Key.author = .author := .inr rfl
  have hitems : ∀ t ∈ items, t ≠ [] ∧ trim t = t ∧ .char ',' ∉ t := by decide
  have hspace : ∀ c ∈ " ".text, isBlank c = true := by decide
  have hwide : ∀ c ∈ "\u3000".text, isBlank c = true := by decide
  have hpadded : Padded items padded :=
    .item hspace hspace _ (.blank (by decide) (.blank (by decide)
      (.item hwide (fun c hc => absurd hc List.not_mem_nil) _ (.blank hspace .nil))))
  have hvalue : value = List.intercalate [.char ','] padded := by decide
  obtain ⟨-, -, -, padding⟩ := fragment_values hlabel value true false
  obtain ⟨refused, -⟩ := fragment_values hauthor " ,\t".text false false
  have hne : items ≠ [] := List.cons_ne_nil _ _
  exact ⟨hlabel, hauthor, ⟨hne, hitems, hpadded, hvalue⟩,
    (padding items padded hne hitems hpadded hvalue).1 rfl, refused.2 (by decide)⟩

end Qualifier

end SearchQuery
