import Mathlib.Logic.Function.Iterate
import SearchQuery.Proofs.Assembly
import SearchQuery.Qualifier

/-!
# Negation only adds a dash

**Theorem (`ofItems_excludeFrom`).** Exclude fragments that are not excluded, at any positions and
any number of times each. The assembly ends as it would without, with the same breakdown or with the
same failures, and its tokens are the same but for a dash in front of those at the chosen positions.
A qualifier that is negated is refused as it would be without, and otherwise gives the rendering
behind a dash, or the same error.

A fragment renders to its term behind a dash, so exclusion changes no failure (`failure?_own`).
What an assembly leaves out, or breaks down with, is decided by the kinds and the failures of its
items alone (`assembleFrom_congr`); its query is made of the tokens that render
(`query_of_assembleFrom`), and these are compared position by position (`rendered_excludeFrom`).
-/

namespace SearchQuery

/-! ## What an assembly depends on -/

namespace Item

/-- Why an item does not render. -/
def failure? (i : Item) : Option RenderError :=
  match i.render with
  | .ok _ => none
  | .error e => some e

/-- What an item adds to what is left out, or breaks down with. -/
def leftOut (index : Nat) (i : Item) : Except AssemblyError (List Omission) :=
  match i.failure?, i.kind with
  | none, _ => .ok []
  | some (.query e), some kind => .ok [⟨index, kind, e⟩]
  | some (.query _), none => .error .missingKind
  | some e, _ => .error (.render e)

end Item

theorem assembleFrom_cons (index : Nat) (i : Item) (rest : List Item) :
    assembleFrom index (i :: rest) =
      match i.leftOut index, assembleFrom (index + 1) rest with
      | .error e, _ => .error e
      | .ok _, .error e => .error e
      | .ok omitted, .ok p => .ok (i.token ++ p.1, omitted ++ p.2) := by
  rw [assembleFrom, Item.leftOut, Item.failure?, Item.token]
  cases hr : i.render with
  | ok t => cases assembleFrom (index + 1) rest <;> simp
  | error e =>
    cases e with
    | query e => cases i.kind <;> cases assembleFrom (index + 1) rest <;> rfl
    | notOperator c => rfl
    | broken b m => rfl

/-- **What is left out** follows from the kinds and the failures of the items. -/
theorem assembleFrom_congr {xs ys : List Item} (index : Nat)
    (h : xs.map (fun i => (i.kind, i.failure?)) = ys.map fun i => (i.kind, i.failure?)) :
    (assembleFrom index xs).map (·.2) = (assembleFrom index ys).map (·.2) := by
  induction xs generalizing index ys with
  | nil =>
    obtain rfl := List.map_eq_nil_iff.1 h.symm
    rfl
  | cons x xs ih =>
    obtain ⟨y, ys, rfl, hxy, hrest⟩ := List.map_eq_cons_iff.1 h.symm
    obtain ⟨hkind, hfailure⟩ := Prod.mk.inj hxy
    -- Where kinds and failures agree, the same is left out of both.
    have hsame : y.leftOut index = x.leftOut index := by
      rw [Item.leftOut, Item.leftOut, hkind, hfailure]
    have hrest := ih (index + 1) hrest.symm
    rw [assembleFrom_cons, assembleFrom_cons, hsame]
    cases x.leftOut index with
    | error e => rfl
    | ok omitted =>
      cases hx : assembleFrom (index + 1) xs <;> cases hy : assembleFrom (index + 1) ys <;>
        simp_all [Except.map]

theorem query_of_assembleFrom {items : List Item} {index : Nat} {p : Text × List Omission}
    (h : assembleFrom index items = .ok p) : p.1 = items.flatMap Item.token := by
  induction items generalizing index p with
  | nil =>
    obtain rfl := Except.ok.inj h
    rfl
  | cons i rest ih =>
    rw [assembleFrom_cons] at h
    split at h
    · cases h
    · cases h
    · rename_i omitted q _ hq
      obtain rfl := Except.ok.inj h
      rw [List.flatMap_cons, ih hq]

/-! ## Tokens and their positions -/

/-- The positions and texts of the items that render, counted from `index`. -/
def rendered (index : Nat) (items : List Item) : List (Nat × Text) :=
  (items.zipIdx index).filterMap fun p => p.1.render.toOption.map fun t => (p.2, t)

theorem rendered_cons (index : Nat) (i : Item) (rest : List Item) :
    rendered index (i :: rest) =
      (i.render.toOption.map fun t => (index, t)).toList ++ rendered (index + 1) rest := by
  cases h : i.render.toOption <;> simp [rendered, h]

theorem flatMap_token (index : Nat) (items : List Item) :
    items.flatMap Item.token = (rendered index items).flatMap fun p => p.2 ++ [.char ' '] := by
  induction items generalizing index with
  | nil => rfl
  | cons i rest ih =>
    rw [List.flatMap_cons, rendered_cons, List.flatMap_append, ← ih, Item.token]
    cases i.render <;> simp [Except.toOption]

/-! ## Excluded fragments -/

/-- Excludes each fragment as many times as its position says, counted from `index`. -/
def excludeFrom (times : Nat → Nat) (index : Nat) (fragments : List Fragment) : List Fragment :=
  (fragments.zipIdx index).map fun p => Fragment.exclude^[times p.2] p.1

theorem excludeFrom_cons (times : Nat → Nat) (index : Nat) (f : Fragment) (rest : List Fragment) :
    excludeFrom times index (f :: rest) =
      Fragment.exclude^[times index] f :: excludeFrom times (index + 1) rest := rfl

namespace Fragment

theorem iterate_exclude (n : Nat) (t : Term) :
    Fragment.exclude^[n] ⟨t, false⟩ = ⟨t, decide (n ≠ 0)⟩ := by
  cases n with
  | zero => rfl
  | succ n =>
    induction n with
    | zero => rfl
    | succ n ih => rw [Function.iterate_succ_apply', ih]; rfl

theorem render_eq (t : Term) (excluded : Bool) :
    (Fragment.mk t excluded).render =
      (Fragment.mk t false).render.map fun text => dash excluded ++ text := by
  cases h : t.render <;> simp [render, dash, h, Except.map]

end Fragment

theorem failure?_own (t : Term) (excluded : Bool) :
    (Item.own ⟨t, excluded⟩).failure? = (Item.own ⟨t, false⟩).failure? := by
  rw [Item.failure?, Item.failure?, Item.render, Item.render, Fragment.render_eq]
  cases (Fragment.mk t false).render <;> rfl

theorem failures_excludeFrom (times : Nat → Nat) (index : Nat) (terms : List Term) :
    ((excludeFrom times index (terms.map fun t => ⟨t, false⟩)).map Item.own).map
        (fun i => (i.kind, i.failure?)) =
      ((terms.map fun t => Fragment.mk t false).map Item.own).map
        fun i => (i.kind, i.failure?) := by
  induction terms generalizing index with
  | nil => rfl
  | cons t rest ih =>
    rw [List.map_cons, excludeFrom_cons, List.map_cons, List.map_cons, ih,
      Fragment.iterate_exclude, failure?_own]
    rfl

theorem rendered_excludeFrom (times : Nat → Nat) (index : Nat) (terms : List Term) :
    rendered index ((excludeFrom times index (terms.map fun t => ⟨t, false⟩)).map .own) =
      (rendered index ((terms.map fun t => Fragment.mk t false).map .own)).map
        fun p => (p.1, dash (decide (times p.1 ≠ 0)) ++ p.2) := by
  induction terms generalizing index with
  | nil => rfl
  | cons t rest ih =>
    rw [List.map_cons, excludeFrom_cons, List.map_cons, rendered_cons, ih, List.map_cons,
      rendered_cons, List.map_append, Fragment.iterate_exclude, Item.render, Item.render,
      Fragment.render_eq]
    cases (Fragment.mk t false).render <;> rfl

/-! ## Results and qualifiers -/

/-- Two results that are the same as far as `f` sees fail together. -/
theorem Except.cases_of_map_eq {ε α β : Type} {f : α → β} {x y : Except ε α}
    (h : x.map f = y.map f) :
    (∃ e, x = .error e ∧ y = .error e) ∨ ∃ a b, x = .ok a ∧ y = .ok b ∧ f a = f b := by
  cases x with
  | error e =>
    cases y with
    | error e' => exact .inl ⟨e, rfl, by rw [Except.error.inj h]⟩
    | ok b => cases h
  | ok a =>
    cases y with
    | error e => cases h
    | ok b => exact .inr ⟨a, b, rfl, rfl, Except.ok.inj h⟩

namespace QueryResult

/-- What the results of two assemblies with the same failures have in common. -/
theorem ofItems_of_congr (next : Nat) {xs ys : List Item}
    (h : xs.map (fun i => (i.kind, i.failure?)) = ys.map fun i => (i.kind, i.failure?)) :
    (∃ e, ofItems next xs = .error e ∧ ofItems next ys = .error e) ∨
      ∃ group, ofItems next xs = .ok ⟨xs.flatMap Item.token, group⟩ ∧
        ofItems next ys = .ok ⟨ys.flatMap Item.token, group⟩ := by
  rcases Except.cases_of_map_eq (assembleFrom_congr 0 h) with ⟨e, hx, hy⟩ | ⟨p, q, hx, hy, hpq⟩
  · refine .inl ⟨e, ?_, ?_⟩
    · rw [ofItems, assemble, hx]
      rfl
    · rw [ofItems, assemble, hy]
      rfl
  · refine .inr ⟨ErrorGroup.of? next (p.2.map fun o => ((o.index : Int), o.error)), ?_, ?_⟩
    · rw [ofItems, assemble, hx, ← query_of_assembleFrom hx]
      rfl
    · rw [ofItems, assemble, hy, ← query_of_assembleFrom hy, hpq]
      rfl

end QueryResult

namespace Qualifier

/-- A negated qualifier is refused as it would be without, or renders behind a dash. -/
theorem fragment_negated (key value : Text) (timezoned : Bool) :
    (∀ e, (Qualifier.mk key value true).fragment timezoned = .error e ↔
      (Qualifier.mk key value false).fragment timezoned = .error e) ∧
    ∀ f, (Qualifier.mk key value false).fragment timezoned = .ok f →
      ∃ g, (Qualifier.mk key value true).fragment timezoned = .ok g ∧
        g.render = f.render.map (.char '-' :: ·) := by
  rw [fragment_eq, fragment_eq]
  cases (do (← Key.ofName key).term timezoned value : Except QualifierError Term) with
  | error e => exact ⟨fun e' => Iff.rfl, fun f hf => by cases hf⟩
  | ok t =>
    refine ⟨fun e' => ⟨nofun, nofun⟩, ?_⟩
    intro f hf
    obtain rfl := Except.ok.inj hf
    exact ⟨_, rfl, Fragment.render_exclude t⟩

end Qualifier

/-- **Negation only adds a dash**: to the tokens at the chosen positions of an assembly, which ends
as it would without, and to what a qualifier renders to. -/
theorem QueryResult.ofItems_excludeFrom (next : Nat) (times : Nat → Nat) (terms : List Term) :
    let plain := (terms.map fun t => Fragment.mk t false).map Item.own
    let marked := (excludeFrom times 0 (terms.map fun t => ⟨t, false⟩)).map Item.own
    (∀ e, ofItems next marked = .error e ↔ ofItems next plain = .error e) ∧
    (∀ r, ofItems next plain = .ok r → ∃ s, ofItems next marked = .ok s ∧ s.error = r.error ∧
      r.query = (rendered 0 plain).flatMap (fun p => p.2 ++ [.char ' ']) ∧
      s.query = (rendered 0 plain).flatMap fun p =>
        dash (decide (times p.1 ≠ 0)) ++ p.2 ++ [.char ' ']) ∧
    ∀ key value timezoned,
      (∀ e, (Qualifier.mk key value true).fragment timezoned = .error e ↔
        (Qualifier.mk key value false).fragment timezoned = .error e) ∧
      ∀ f, (Qualifier.mk key value false).fragment timezoned = .ok f →
        ∃ g, (Qualifier.mk key value true).fragment timezoned = .ok g ∧
          g.render = f.render.map (.char '-' :: ·) := by
  intro plain marked
  have hquery : marked.flatMap Item.token = (rendered 0 plain).flatMap fun p =>
      dash (decide (times p.1 ≠ 0)) ++ p.2 ++ [.char ' '] := by
    rw [flatMap_token 0, rendered_excludeFrom, List.flatMap_map]
  rcases ofItems_of_congr next (failures_excludeFrom times 0 terms) with
    ⟨e, hm, hp⟩ | ⟨group, hm, hp⟩
  · refine ⟨?_, ?_, Qualifier.fragment_negated⟩
    · intro e'
      rw [hm, hp]
    · intro r hr
      rw [hp] at hr
      cases hr
  · refine ⟨?_, ?_, Qualifier.fragment_negated⟩
    · intro e
      rw [hm, hp]
      exact ⟨nofun, nofun⟩
    · intro r hr
      obtain rfl := Except.ok.inj (hp.symm.trans hr)
      exact ⟨_, hm, rfl, flatMap_token 0 plain, hquery⟩

/-- Three fragments, of which the second is excluded once and fails as before, and the third is
excluded twice. -/
theorem QueryResult.ofItems_excludeFrom_three :
    let first : Timestamp := .date ((Date.of? 2024 6 1).get rfl)
    let second : Timestamp := .date ((Date.of? 2024 6 2).get rfl)
    let terms : List Term :=
      [.text "x".text, .range "created".text .date second first, .tag "is".text "open".text]
    let plain := (terms.map fun t => Fragment.mk t false).map Item.own
    let marked := (excludeFrom id 0 (terms.map fun t => ⟨t, false⟩)).map Item.own
    ∃ r s, ofItems 0 plain = .ok r ∧ ofItems 0 marked = .ok s ∧ s.error = r.error ∧
      r.failures = [(1, .invertedPeriod "created".text second first)] ∧
      r.query = "\"x\" is:open ".text ∧ s.query = "\"x\" -is:open ".text := by
  intro first second terms plain marked
  have hk : ∀ i ∈ plain, i.kind ≠ none := by decide
  have hb : ∀ i ∈ plain, i.breakdown? = none := by decide
  obtain ⟨r, hr, exact⟩ := ofItems_of_unbroken 0 hk hb
  obtain ⟨s, hs, herror, hrquery, hsquery⟩ := (ofItems_excludeFrom 0 id terms).2.1 r hr
  exact ⟨r, s, hr, hs, herror, exact.failures.trans (by decide), hrquery.trans (by decide),
    hsquery.trans (by decide)⟩

end SearchQuery
