import SearchQuery.Proofs.Timestamp.Shape
import SearchQuery.Qualifier

/-!
# Values of dates

What `created` and `closed` take: a timestamp behind an operator, or two with `..` between them.

**Theorem (`Qualifier.fragment_dates`).** A value gives a single timestamp exactly when it spells
one (`SpellsOne`), and then in one way; it gives a range exactly when it spells two (`SpellsTwo`);
every other value is refused as an invalid date.

What follows an operator starts with a digit, so the operator ends where the longest symbol does
(`splitOperator_append`), and what is read has no two dots in a row, so that a single timestamp is
not taken for a range. The second half has the exception of `Overrun`: a timestamp whose dots are
passed over by the reader is cut at these dots all the same (`fragment_overrun`).
-/

namespace SearchQuery

/-! ## Operators -/

namespace Comparison

/-- What may stand in front of a timestamp. -/
def spellings : List Text := ["".text, "=".text, "<".text, "<=".text, ">".text, ">=".text]

theorem dot_not_mem_spellings {op : Text} (h : op ∈ spellings) : .char '.' ∉ op := by
  revert op
  decide

end Comparison

theorem splitOperator_spec (t : Text) :
    ∃ op ∈ Comparison.spellings, t = op ++ (splitOperator t).2 ∧
      Comparison.parse op = .ok (splitOperator t).1 := by
  unfold splitOperator
  split
  · exact ⟨"<=".text, by decide, rfl, rfl⟩
  · exact ⟨">=".text, by decide, rfl, rfl⟩
  · exact ⟨"<".text, by decide, rfl, rfl⟩
  · exact ⟨">".text, by decide, rfl, rfl⟩
  · exact ⟨"=".text, by decide, rfl, rfl⟩
  · exact ⟨"".text, by decide, rfl, rfl⟩

/-- An operator is split off whole where none of its characters follows it. -/
theorem splitOperator_append {op rest : Text} {c : Comparison} (hop : op ∈ Comparison.spellings)
    (hc : Comparison.parse op = .ok c) (hrest : ∀ d ∈ "<>=".text, rest.head? ≠ some d) :
    splitOperator (op ++ rest) = (c, rest) := by
  have hother : ∀ d ∈ "<>=".text, ∀ r, rest ≠ d :: r := by
    rintro d hd r rfl
    exact hrest d hd rfl
  have hless := hother (.char '<') (by decide)
  have hgreater := hother (.char '>') (by decide)
  have hequal := hother (.char '=') (by decide)
  simp only [Comparison.spellings, List.mem_cons, List.not_mem_nil, or_false] at hop
  -- An operator of at most one character looks at what is behind it.
  rcases hop with rfl | rfl | rfl | rfl | rfl | rfl <;> obtain rfl := Except.ok.inj hc
  · show splitOperator rest = _
    rw [splitOperator]
    exacts [fun _ => hless _, fun _ => hgreater _, hless, hgreater, hequal]
  · rfl
  · show splitOperator (.char '<' :: rest) = _
    rw [splitOperator]
    exact hequal
  · rfl
  · show splitOperator (.char '>' :: rest) = _
    rw [splitOperator]
    exact hequal
  · rfl

/-! ## Spellings -/

/-- A value spells one timestamp: it is an operator and a text that reads as the timestamp. -/
structure SpellsOne (value op rest : Text) (c : Comparison) (t : Timestamp) : Prop where
  operator : op ∈ Comparison.spellings
  comparison : Comparison.parse op = .ok c
  split : trim value = op ++ rest
  reads : Timestamp.parse rest = .ok t

/-- A value spells two timestamps, with the first two dots in a row between them. -/
structure SpellsTwo (value front back : Text) (start finish : Timestamp) : Prop where
  split : value = front ++ "..".text ++ back
  first : ¬ "..".text <:+: front ++ [.char '.']
  reads_front : Timestamp.parse front = .ok start
  reads_back : Timestamp.parse back = .ok finish

theorem head_ne_of_parse {t : Text} {x : Timestamp} (h : Timestamp.parse t = .ok x) {c : CodePoint}
    (hblank : isBlank c = false) (hdigit : c.isDigit = false) : t.head? ≠ some c := by
  intro hc
  obtain ⟨r, rfl⟩ := List.head?_eq_some_iff.1 hc
  have hstart := startsWithDigit_of_parse h
  rw [trim_cons hblank] at hstart
  exact hstart.head_ne hdigit rfl

theorem not_digit_of_mem_operator {c : CodePoint} (h : c ∈ "<>=".text) :
    isBlank c = false ∧ c.isDigit = false := by
  revert c
  decide

namespace SpellsOne

variable {value op rest : Text} {c : Comparison} {t : Timestamp}

theorem splitOperator_eq (h : SpellsOne value op rest c t) :
    splitOperator (trim value) = (c, rest) := by
  rw [h.split]
  refine splitOperator_append h.operator h.comparison fun d hd => ?_
  obtain ⟨hblank, hdigit⟩ := not_digit_of_mem_operator hd
  exact head_ne_of_parse h.reads hblank hdigit

/-- **A value spells one timestamp in one way.** -/
theorem unique {op' rest' : Text} {c' : Comparison} {t' : Timestamp}
    (h : SpellsOne value op rest c t) (h' : SpellsOne value op' rest' c' t') :
    op = op' ∧ rest = rest' ∧ c = c' ∧ t = t' := by
  obtain ⟨rfl, rfl⟩ := Prod.mk.inj (h.splitOperator_eq.symm.trans h'.splitOperator_eq)
  exact ⟨List.append_cancel_right (h.split.symm.trans h'.split), rfl, rfl,
    Except.ok.inj (h.reads.symm.trans h'.reads)⟩

theorem dotsApart_iff (h : SpellsOne value op rest c t) : DotsApart value ↔ ¬ Overrun rest := by
  rw [← dotsApart_trim, h.split, dotsApart_append_left (Comparison.dot_not_mem_spellings h.operator),
    ← parse_dots_iff, not_and, not_not]
  exact ⟨fun hdots _ => hdots, fun hdots => hdots ⟨t, h.reads⟩⟩

theorem dateTerm_eq (h : SpellsOne value op rest c t) (hover : ¬ Overrun rest) (key : Key)
    (format : DateFormat) : dateTerm key format value = .ok (.single key.name format t c) := by
  have hcut : cutAtDots value = none := cutAtDots_eq_none_iff.2 (h.dotsApart_iff.2 hover)
  simp only [dateTerm, hcut, h.splitOperator_eq, readDateValue, h.reads]
  rfl

end SpellsOne

theorem SpellsTwo.dateTerm_eq {value front back : Text} {start finish : Timestamp}
    (h : SpellsTwo value front back start finish) (key : Key) (format : DateFormat) :
    dateTerm key format value = .ok (.range key.name format start finish) := by
  have hcut : cutAtDots value = some (front, back) := cutAtDots_eq_some_iff.2 ⟨h.split, h.first⟩
  simp only [dateTerm, hcut, readDateValue, h.reads_front, h.reads_back]
  rfl

/-- A value spells one timestamp or two, or it is refused. -/
theorem spells_or_refused (key : Key) (format : DateFormat) (value : Text) :
    (∃ op rest c t, SpellsOne value op rest c t ∧ ¬ Overrun rest) ∨
      (∃ front back start finish, SpellsTwo value front back start finish) ∨
      ∃ e, dateTerm key format value = .error (.invalidDate e) := by
  cases hcut : cutAtDots value with
  | none =>
    obtain ⟨op, hop, hsplit, hc⟩ := splitOperator_spec (trim value)
    cases hread : Timestamp.parse (splitOperator (trim value)).2 with
    | ok t =>
      have hone : SpellsOne value op _ _ t := ⟨hop, hc, hsplit, hread⟩
      exact .inl ⟨_, _, _, _, hone, hone.dotsApart_iff.1 (cutAtDots_eq_none_iff.1 hcut)⟩
    | error e =>
      refine .inr (.inr ⟨e, ?_⟩)
      simp only [dateTerm, hcut, readDateValue, hread]
      rfl
  | some parts =>
    obtain ⟨front, back⟩ := parts
    cases hfront : Timestamp.parse front with
    | error e =>
      refine .inr (.inr ⟨e, ?_⟩)
      simp only [dateTerm, hcut, readDateValue, hfront]
      rfl
    | ok start =>
      cases hback : Timestamp.parse back with
      | error e =>
        refine .inr (.inr ⟨e, ?_⟩)
        simp only [dateTerm, hcut, readDateValue, hfront, hback]
        rfl
      | ok finish =>
        -- The text is cut at the first two dots, so there are none in front.
        obtain ⟨hsplit, hfirst⟩ := cutAtDots_eq_some_iff.1 hcut
        exact .inr (.inl ⟨front, back, start, finish, hsplit, hfirst, hfront, hback⟩)

theorem dateTerm_eq_single_iff {key : Key} {format : DateFormat} {value tag : Text}
    {shown : DateFormat} {t : Timestamp} {c : Comparison} :
    dateTerm key format value = .ok (.single tag shown t c) ↔
      (tag = key.name ∧ shown = format) ∧
        ∃ op rest, SpellsOne value op rest c t ∧ ¬ Overrun rest := by
  constructor
  · intro h
    -- Each way to spell a value has a result of its own, so only the first is left.
    rcases spells_or_refused key format value with
      ⟨op, rest, c', t', hone, hover⟩ | ⟨front, back, start, finish, htwo⟩ | ⟨e, he⟩
    · cases (hone.dateTerm_eq hover key format).symm.trans h
      exact ⟨⟨rfl, rfl⟩, op, rest, hone, hover⟩
    · cases (htwo.dateTerm_eq key format).symm.trans h
    · cases he.symm.trans h
  · rintro ⟨⟨rfl, rfl⟩, op, rest, hone, hover⟩
    exact hone.dateTerm_eq hover key shown

theorem dateTerm_eq_range_iff {key : Key} {format : DateFormat} {value tag : Text}
    {shown : DateFormat} {start finish : Timestamp} :
    dateTerm key format value = .ok (.range tag shown start finish) ↔
      (tag = key.name ∧ shown = format) ∧ ∃ front back, SpellsTwo value front back start finish := by
  constructor
  · intro h
    rcases spells_or_refused key format value with
      ⟨op, rest, c, t, hone, hover⟩ | ⟨front, back, s, f, htwo⟩ | ⟨e, he⟩
    · cases (hone.dateTerm_eq hover key format).symm.trans h
    · cases (htwo.dateTerm_eq key format).symm.trans h
      exact ⟨⟨rfl, rfl⟩, front, back, htwo⟩
    · cases he.symm.trans h
  · rintro ⟨⟨rfl, rfl⟩, front, back, htwo⟩
    exact htwo.dateTerm_eq key shown

/-! ## Fragments -/

namespace Qualifier

theorem fragment_of_dates {key : Key} (hkey : key = .created ∨ key = .closed) (value : Text)
    (excluded timezoned : Bool) :
    (Qualifier.mk key.name value excluded).fragment timezoned =
      (dateTerm key (.ofFlag timezoned) value).map fun t => ⟨t, excluded⟩ := by
  rw [fragment_eq, Key.ofName, Key.ofName?_name]
  rcases hkey with rfl | rfl <;> rfl

theorem fragment_eq_ok_iff {key : Key} (hkey : key = .created ∨ key = .closed) {value : Text}
    {excluded timezoned : Bool} {term : Term} {ex : Bool} :
    (Qualifier.mk key.name value excluded).fragment timezoned = .ok ⟨term, ex⟩ ↔
      ex = excluded ∧ dateTerm key (.ofFlag timezoned) value = .ok term := by
  rw [fragment_of_dates hkey]
  cases dateTerm key (.ofFlag timezoned) value with
  | error e => simp [Except.map]
  | ok t => simp [Except.map, and_comm, eq_comm]

/-- **Values of dates** give a single timestamp, a range or an invalid date, as they are spelt. -/
theorem fragment_dates {key : Key} (hkey : key = .created ∨ key = .closed) (value : Text)
    (excluded timezoned : Bool) :
    let result := (Qualifier.mk key.name value excluded).fragment timezoned
    (∀ t, (∃ x, Timestamp.parse t = .ok x) →
      ("..".text <:+: t ↔ Overrun t) ∧ ∀ c ∈ "<>=".text, (trim t).head? ≠ some c) ∧
    (∀ tag format t c ex, result = .ok ⟨.single tag format t c, ex⟩ ↔
      ex = excluded ∧ (tag = key.name ∧ format = .ofFlag timezoned) ∧
        ∃ op rest, SpellsOne value op rest c t ∧ ¬ Overrun rest) ∧
    (∀ op rest c t op' rest' c' t', SpellsOne value op rest c t → SpellsOne value op' rest' c' t' →
      op = op' ∧ rest = rest' ∧ c = c' ∧ t = t') ∧
    (∀ tag format start finish ex, result = .ok ⟨.range tag format start finish, ex⟩ ↔
      ex = excluded ∧ (tag = key.name ∧ format = .ofFlag timezoned) ∧
        ∃ front back, SpellsTwo value front back start finish) ∧
    ((∃ op rest c t, SpellsOne value op rest c t ∧ ¬ Overrun rest) ∨
      (∃ front back start finish, SpellsTwo value front back start finish) ∨
      ∃ e, result = .error (.invalidDate e)) := by
  intro result
  refine ⟨?_, ?_, ?_, ?_, ?_⟩
  · rintro t ⟨x, hx⟩
    refine ⟨?_, fun c hc => (startsWithDigit_of_parse hx).head_ne (not_digit_of_mem_operator hc).2⟩
    rw [dots_infix_iff, ← parse_dots_iff]
    exact ⟨fun hdots => ⟨⟨x, hx⟩, hdots⟩, And.right⟩
  · intro tag format t c ex
    rw [fragment_eq_ok_iff hkey, dateTerm_eq_single_iff]
  · intro op rest c t op' rest' c' t' h h'
    exact h.unique h'
  · intro tag format start finish ex
    rw [fragment_eq_ok_iff hkey, dateTerm_eq_range_iff]
  · rcases spells_or_refused key (.ofFlag timezoned) value with hone | htwo | ⟨e, he⟩
    · exact .inl hone
    · exact .inr (.inl htwo)
    · have hresult : result = _ := fragment_of_dates hkey value excluded timezoned
      refine .inr (.inr ⟨e, ?_⟩)
      rw [hresult, he]
      rfl

/-- A time at a dot behind its date, with an operator in front; then a day as the start of a range
whose end has two dots passed over. -/
theorem fragment_dates_two :
    let day : Date := (Date.of? 2024 6 1).get rfl
    let noon : Timestamp := .dateTime ⟨day, ⟨12, 0, 0, 500000⟩, none, none⟩
    (Key.created = .created ∨ Key.created = .closed) ∧
      (Qualifier.mk "created".text " <= 2024-06-01.12:00:00.5 ".text true).fragment true =
        .ok ⟨.single "created".text .timezoned noon .leq, true⟩ ∧
      (Qualifier.mk "created".text "2024-06-01..20240601..".text false).fragment false =
        .ok ⟨.range "created".text .date (.date day) (.date day), false⟩ := by
  intro day noon
  have hkey : Key.created = .created ∨ Key.created = .closed := .inl rfl
  obtain ⟨-, one, -, -, -⟩ := fragment_dates hkey " <= 2024-06-01.12:00:00.5 ".text true true
  obtain ⟨-, -, -, two, -⟩ := fragment_dates hkey "2024-06-01..20240601..".text false false
  have hone : SpellsOne " <= 2024-06-01.12:00:00.5 ".text "<=".text " 2024-06-01.12:00:00.5".text
      .leq noon := ⟨by decide, rfl, by decide, by decide⟩
  have htwo : SpellsTwo "2024-06-01..20240601..".text "2024-06-01".text "20240601..".text (.date day)
      (.date day) := ⟨by decide, by decide, by decide, by decide⟩
  have hover : ¬ Overrun " 2024-06-01.12:00:00.5".text :=
    hone.dotsApart_iff.1 (cutAtDots_eq_none_iff.1 rfl)
  exact ⟨hkey, (one _ _ _ _ _).2 ⟨rfl, ⟨rfl, rfl⟩, _, _, hone, hover⟩,
    (two _ _ _ _ _).2 ⟨rfl, ⟨rfl, rfl⟩, _, _, htwo⟩⟩

/-- A day whose dots are passed over is read, but as a value it is cut at them. -/
theorem fragment_overrun :
    let day : Date := (Date.of? 2024 6 1).get rfl
    "..".text <:+: "20240601..".text ∧ Timestamp.parse "20240601..".text = .ok (.date day) ∧
      SpellsOne "20240601..".text "".text "20240601..".text .equal (.date day) ∧
      (Qualifier.mk "created".text "20240601..".text false).fragment false =
        .error (.invalidDate ⟨[]⟩) := by
  intro day
  have hread : Timestamp.parse "20240601..".text = .ok (.date day) := by decide
  exact ⟨by decide, hread, ⟨by decide, rfl, by decide, hread⟩, rfl⟩

end Qualifier

end SearchQuery
