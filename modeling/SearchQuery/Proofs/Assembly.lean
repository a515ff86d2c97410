import SearchQuery.Assembly

/-!
# What an assembly leaves out

**Theorem (`ofItems_exact`).** For items that tell a kind, either one of them breaks down, and the
assembly ends with what the first such item broke down with, or the result is exact: its query is
made of the tokens of the items that render, and its failures are the positions and errors of the
others, in order. So the result for `xs ++ ys` is the result for `xs` followed by the one for `ys`,
whose failures are moved by the length of `xs`.

The proof is one induction on the items for each of the two ends (`assembleFrom_exact`,
`assembleFrom_breakdown`). Positions count every item, so both are stated for a count that starts
anywhere.
-/

namespace SearchQuery

/-! ## What one item adds -/

theorem Comparison.symbol?_eq_none_iff {c : Comparison} : c.symbol? = none ↔ c ∉ operators := by
  obtain ⟨e, l, g⟩ := c
  cases e <;> cases l <;> cases g <;> decide

namespace Item

/-- What an item adds to a query. -/
def token (i : Item) : Text :=
  match i.render with
  | .ok t => t ++ [.char ' ']
  | .error _ => []

/-- The error that an item is left out for. -/
def omission? (i : Item) : Option QueryError :=
  match i.render with
  | .error (.query e) => some e
  | _ => none

/-- The error that an item ends an assembly with. -/
def breakdown? (i : Item) : Option RenderError :=
  match i.render with
  | .ok _ => none
  | .error (.query _) => none
  | .error e => some e

theorem omission?_eq_some_iff {i : Item} {e : QueryError} :
    i.omission? = some e ↔ i.render = .error (.query e) := by
  unfold omission?
  split <;> simp_all

theorem cases_render (i : Item) :
    (∃ t, i.render = .ok t ∧ i.token = t ++ [.char ' '] ∧ i.omission? = none ∧
      i.breakdown? = none) ∨
    (∃ e, i.render = .error (.query e) ∧ i.token = [] ∧ i.omission? = some e ∧
      i.breakdown? = none) ∨
    ∃ e, i.render = .error e ∧ (∀ q, e ≠ .query q) ∧ i.breakdown? = some e := by
  unfold token omission? breakdown?
  cases h : i.render with
  | ok t => exact .inl ⟨t, by simp⟩
  | error e =>
    cases e with
    | query q => exact .inr (.inl ⟨q, by simp⟩)
    | notOperator c => exact .inr (.inr ⟨.notOperator c, by simp⟩)
    | broken b m => exact .inr (.inr ⟨.broken b m, by simp⟩)

/-- A single timestamp behind something other than an operator breaks down. -/
theorem breakdown?_single {c : Comparison} (h : c ∉ Comparison.operators) (tag : Text)
    (format : DateFormat) (value : Timestamp) (excluded : Bool) :
    (own ⟨.single tag format value c, excluded⟩).breakdown? = some (.notOperator c) := by
  simp [breakdown?, render, Fragment.render, Term.render, Comparison.render,
    Comparison.symbol?_eq_none_iff.2 h, Except.map]

end Item

/-! ## What is left out -/

/-- The positions and errors of the items that are left out, counted from `index`. -/
def failing (index : Nat) (items : List Item) : List (Nat × QueryError) :=
  (items.zipIdx index).filterMap fun p => p.1.omission?.map fun e => (p.2, e)

theorem failing_cons (index : Nat) (i : Item) (rest : List Item) :
    failing index (i :: rest) =
      (i.omission?.map fun e => (index, e)).toList ++ failing (index + 1) rest := by
  cases h : i.omission? <;> simp [failing, h]

/-- What is left out at a position is what fails there. -/
theorem mem_failing_iff {items : List Item} {n : Nat} {e : QueryError} :
    (n, e) ∈ failing 0 items ↔ ∃ i, items[n]? = some i ∧ i.render = .error (.query e) := by
  simp only [failing, List.mem_filterMap, Prod.exists, Option.map_eq_some_iff,
    Prod.mk.injEq, List.mk_mem_zipIdx_iff_getElem?]
  constructor
  · rintro ⟨i, m, hi, e', he, rfl, rfl⟩
    exact ⟨i, hi, Item.omission?_eq_some_iff.1 he⟩
  · rintro ⟨i, hi, he⟩
    exact ⟨i, n, hi, e, Item.omission?_eq_some_iff.2 he, rfl, rfl⟩

theorem le_of_mem_failing {index : Nat} {items : List Item} {p : Nat × QueryError}
    (h : p ∈ failing index items) : index ≤ p.1 := by
  obtain ⟨⟨i, n⟩, hi, hp⟩ := List.mem_filterMap.1 h
  obtain ⟨e, -, rfl⟩ := Option.map_eq_some_iff.1 hp
  exact (List.mk_mem_zipIdx_iff_le_and_getElem?_sub.1 hi).1

/-- No position is left out twice, and they stand in order. -/
theorem pairwise_failing (index : Nat) (items : List Item) :
    (failing index items).Pairwise fun p q => p.1 < q.1 := by
  induction items generalizing index with
  | nil => exact List.Pairwise.nil
  | cons i rest ih =>
    rw [failing_cons]
    cases i.omission? with
    | none => exact ih _
    | some e => exact List.pairwise_cons.2 ⟨fun q hq => le_of_mem_failing hq, ih _⟩

theorem failing_eq_nil_iff {index : Nat} {items : List Item} :
    failing index items = [] ↔ ∀ i ∈ items, i.omission? = none := by
  induction items generalizing index with
  | nil => simp [failing]
  | cons i rest ih => cases h : i.omission? <;> simp [failing_cons, h, ih]

theorem failing_add (index n : Nat) (items : List Item) :
    failing (n + index) items = (failing index items).map fun p => (n + p.1, p.2) := by
  induction items generalizing index with
  | nil => rfl
  | cons i rest ih =>
    rw [failing_cons, failing_cons, Nat.add_assoc, ih]
    cases i.omission? <;> rfl

theorem failing_append (xs ys : List Item) :
    failing 0 (xs ++ ys) =
      failing 0 xs ++ (failing 0 ys).map fun p => (xs.length + p.1, p.2) := by
  rw [← failing_add, failing, List.zipIdx_append, List.filterMap_append, Nat.zero_add,
    Nat.add_zero]
  rfl

/-! ## Both ends of an assembly -/

/-- An assembly of items that do not break down, as it goes on from any count. -/
theorem assembleFrom_exact (index : Nat) {items : List Item} (hk : ∀ i ∈ items, i.kind ≠ none)
    (hb : ∀ i ∈ items, i.breakdown? = none) :
    ∃ omitted, assembleFrom index items = .ok (items.flatMap Item.token, omitted) ∧
      omitted.map (fun o => (o.index, o.error)) = failing index items := by
  induction items generalizing index with
  | nil => exact ⟨[], rfl, rfl⟩
  | cons i rest ih =>
    obtain ⟨hki, hkr⟩ := List.forall_mem_cons.1 hk
    obtain ⟨hbi, hbr⟩ := List.forall_mem_cons.1 hb
    obtain ⟨omitted, hrest, hmap⟩ := ih (index + 1) hkr hbr
    rcases i.cases_render with ⟨t, hr, ht, ho, -⟩ | ⟨e, hr, ht, ho, -⟩ | ⟨e, -, -, he⟩
    · refine ⟨omitted, ?_, by rw [hmap, failing_cons, ho]; rfl⟩
      rw [assembleFrom, hr]
      simp [hrest, ht]
    · obtain ⟨kind, hkind⟩ := Option.ne_none_iff_exists'.1 hki
      refine ⟨⟨index, kind, e⟩ :: omitted, ?_, by rw [List.map_cons, hmap, failing_cons, ho]; rfl⟩
      rw [assembleFrom, hr]
      simp [hkind, hrest, ht]
    -- Nothing breaks down, so there is no third kind of item.
    · simp [he] at hbi

/-- The first item that breaks down ends an assembly. -/
theorem assembleFrom_breakdown (index : Nat) {pre post : List Item} {i : Item} {e : RenderError}
    (hk : ∀ j ∈ pre, j.kind ≠ none) (hb : ∀ j ∈ pre, j.breakdown? = none)
    (he : i.breakdown? = some e) : assembleFrom index (pre ++ i :: post) = .error (.render e) := by
  induction pre generalizing index with
  | nil =>
    -- Of the three kinds of item only the last one breaks down.
    rcases i.cases_render with ⟨_, -, -, -, hn⟩ | ⟨_, -, -, -, hn⟩ | ⟨e', hr, hq, hs⟩
    · simp [hn] at he
    · simp [hn] at he
    · obtain rfl : e' = e := Option.some.inj (hs.symm.trans he)
      rw [List.nil_append, assembleFrom, hr]
      cases e' with
      | query q => exact absurd rfl (hq q)
      | notOperator c => rfl
      | broken b m => rfl
  | cons j rest ih =>
    obtain ⟨hkj, hkr⟩ := List.forall_mem_cons.1 hk
    obtain ⟨hbj, hbr⟩ := List.forall_mem_cons.1 hb
    -- What stands in front renders or is left out, and the assembly goes on behind it.
    have hrest := ih (index + 1) hkr hbr
    rw [List.cons_append, assembleFrom]
    rcases j.cases_render with ⟨t, hr, -⟩ | ⟨q, hr, -⟩ | ⟨_, -, -, hs⟩
    · simp only [hr, hrest]
    · obtain ⟨kind, hkind⟩ := Option.ne_none_iff_exists'.1 hkj
      simp only [hr, hkind, hrest]
    · simp [hs] at hbj

/-! ## Results -/

namespace ErrorGroup

theorem map_numbered (next : Nat) (fs : List (Int × QueryError)) :
    (numbered next fs).map (fun f => (f.index, f.raised.error)) = fs := by
  induction fs generalizing next with
  | nil => rfl
  | cons f fs ih => simp [numbered, ih]

theorem of?_eq_none_iff {next : Nat} {fs : List (Int × QueryError)} :
    of? next fs = none ↔ fs = [] := by
  unfold of?
  split <;> simp_all

theorem failures_of? {next : Nat} {fs : List (Int × QueryError)} {g : ErrorGroup}
    (h : of? next fs = some g) : g.failures = numbered next fs := by
  unfold of? at h
  split at h
  · simp at h
  · obtain rfl := Option.some.inj h
    rfl

end ErrorGroup

namespace QueryResult

/-- The positions and errors of what a result lacks. -/
def failures (r : QueryResult) : List (Int × QueryError) :=
  match r.error with
  | none => []
  | some g => g.failures.map fun f => (f.index, f.raised.error)

/-- A result has the tokens of the items that render and the failures of the others. -/
structure Exact (items : List Item) (r : QueryResult) : Prop where
  query : r.query = items.flatMap Item.token
  error_eq_none_iff : r.error = none ↔ ∀ i ∈ items, i.omission? = none
  failures : r.failures = (failing 0 items).map fun p => ((p.1 : Int), p.2)
  mem_failures_iff : ∀ (n : Nat) (e : QueryError), ((n : Int), e) ∈ r.failures ↔
    ∃ i, items[n]? = some i ∧ i.render = .error (.query e)
  increasing : r.failures.Pairwise fun p q => p.1 < q.1
  errors : ∀ g, r.error = some g → g.errors.map (·.error) = r.failures.map (·.2)
  message : ∀ g, r.error = some g →
    g.message = natural r.failures.length ++ " query fragment(s) failed to render".text
  raises : ∀ g, r.error = some g → r.orRaise = .error g
  returns : r.error = none → r.orRaise = .ok r.query

theorem failures_of? (next : Nat) (query : Text) (fs : List (Int × QueryError)) :
    failures ⟨query, ErrorGroup.of? next fs⟩ = fs := by
  rw [failures]
  cases h : ErrorGroup.of? next fs with
  | none => exact (ErrorGroup.of?_eq_none_iff.1 h).symm
  | some g =>
    simp only
    rw [ErrorGroup.failures_of? h, ErrorGroup.map_numbered]

theorem ofItems_of_unbroken (next : Nat) {items : List Item} (hk : ∀ i ∈ items, i.kind ≠ none)
    (hb : ∀ i ∈ items, i.breakdown? = none) :
    ∃ r, ofItems next items = .ok r ∧ r.Exact items := by
  obtain ⟨omitted, ha, hmap⟩ := assembleFrom_exact 0 hk hb
  have hfs : omitted.map (fun o => ((o.index : Int), o.error)) =
      (failing 0 items).map fun p => ((p.1 : Int), p.2) := by
    rw [← hmap, List.map_map]
    rfl
  refine ⟨⟨items.flatMap Item.token, ErrorGroup.of? next
    ((failing 0 items).map fun p => ((p.1 : Int), p.2))⟩, ?_, ?_⟩
  · rw [ofItems, assemble, ha, ← hfs]
    rfl
  · have hf := failures_of? next (items.flatMap Item.token)
      ((failing 0 items).map fun p => ((p.1 : Int), p.2))
    -- All but the query is read off the list of failures.
    refine ⟨rfl, ?_, hf, ?_, ?_, ?_, ?_, ?_, ?_⟩
    · rw [ErrorGroup.of?_eq_none_iff, List.map_eq_nil_iff, failing_eq_nil_iff]
    · intro n e
      rw [hf, ← mem_failing_iff, List.mem_map]
      constructor
      · rintro ⟨p, hp, heq⟩
        obtain ⟨hn, rfl⟩ := Prod.mk.inj heq
        rwa [← Int.ofNat_inj.1 hn]
      · intro h
        exact ⟨(n, e), h, rfl⟩
    · rw [hf, List.pairwise_map]
      exact (pairwise_failing 0 items).imp Int.ofNat_lt.2
    · intro g hg
      rw [failures, hg, ErrorGroup.errors, List.map_map, List.map_map]
      rfl
    · intro g hg
      rw [failures, hg, List.length_map, ErrorGroup.message]
    · intro g hg
      rw [orRaise, hg]
    · intro hn
      rw [orRaise, hn]

theorem Exact.append {xs ys : List Item} {r s t : QueryResult} (hr : r.Exact xs) (hs : s.Exact ys)
    (ht : t.Exact (xs ++ ys)) :
    t.query = r.query ++ s.query ∧
      t.failures = r.failures ++ s.failures.map fun p => ((xs.length : Int) + p.1, p.2) := by
  refine ⟨by rw [ht.query, hr.query, hs.query, List.flatMap_append], ?_⟩
  rw [ht.failures, hr.failures, hs.failures, failing_append, List.map_append, List.map_map,
    List.map_map]
  rfl

/-- **Assembly is exact**, whatever fails, and ends with the first breakdown. -/
theorem ofItems_exact (next : Nat) {items : List Item} (hk : ∀ i ∈ items, i.kind ≠ none) :
    ((∀ i ∈ items, i.breakdown? = none) →
      (∃ r, ofItems next items = .ok r ∧ r.Exact items) ∧
      ∀ xs ys, items = xs ++ ys → ∃ r s t, ofItems next xs = .ok r ∧ ofItems next ys = .ok s ∧
        ofItems next items = .ok t ∧ t.query = r.query ++ s.query ∧
        t.failures = r.failures ++ s.failures.map fun p => ((xs.length : Int) + p.1, p.2)) ∧
    (∀ pre i post e, items = pre ++ i :: post → (∀ j ∈ pre, j.breakdown? = none) →
      i.breakdown? = some e → ofItems next items = .error (.render e)) ∧
    ∀ tag format value c excluded, c ∉ Comparison.operators →
      (Item.own ⟨.single tag format value c, excluded⟩).breakdown? = some (.notOperator c) := by
  refine ⟨?_, ?_, ?_⟩
  · intro hb
    refine ⟨ofItems_of_unbroken next hk hb, ?_⟩
    rintro xs ys rfl
    obtain ⟨hkx, hky⟩ := List.forall_mem_append.1 hk
    obtain ⟨hbx, hby⟩ := List.forall_mem_append.1 hb
    obtain ⟨r, hr, her⟩ := ofItems_of_unbroken next hkx hbx
    obtain ⟨s, hs, hes⟩ := ofItems_of_unbroken next hky hby
    obtain ⟨t, ht, het⟩ := ofItems_of_unbroken next hk hb
    exact ⟨r, s, t, hr, hs, ht, her.append hes het⟩
  · rintro pre i post e rfl hb he
    rw [ofItems, assemble, assembleFrom_breakdown 0 (List.forall_mem_append.1 hk).1 hb he]
    rfl
  · intro tag format value c excluded hc
    exact Item.breakdown?_single hc tag format value excluded

/-- Four items, of which the second and the third are left out. -/
theorem ofItems_exact_four :
    let first : Timestamp := .date ((Date.of? 2024 6 1).get rfl)
    let second : Timestamp := .date ((Date.of? 2024 6 2).get rfl)
    let items : List Item :=
      [.own ⟨.text "a".text, true⟩, .own ⟨.range "created".text .date second first, false⟩,
        .foreign ⟨some .tag, .error (.query (.refused "no".text))⟩,
        .own ⟨.tag "is".text "open".text, false⟩]
    (∀ i ∈ items, i.kind ≠ none) ∧ (∀ i ∈ items, i.breakdown? = none) ∧
      ∃ r, ofItems 0 items = .ok r ∧ r.query = "-\"a\" is:open ".text ∧
        r.failures = [(1, .invertedPeriod "created".text second first), (2, .refused "no".text)] := by
  intro first second items
  have hk : ∀ i ∈ items, i.kind ≠ none := by decide
  have hb : ∀ i ∈ items, i.breakdown? = none := by decide
  obtain ⟨r, hr, exact⟩ := ((ofItems_exact 0 hk).1 hb).1
  exact ⟨hk, hb, r, hr, exact.query.trans (by decide), exact.failures.trans (by decide)⟩

end QueryResult

end SearchQuery
