import Mathlib.Logic.Relation
import SearchQuery.Workbench

/-!
# Who holds which exclusion

**Theorem (`run_exclusions`).** Whatever steps a workbench takes, an exclusion that is set stays
set. Excluding through a slot sets the one exclusion that the slot's object is or holds and does
nothing else, so a rendering changes only where that exclusion is held and was not set before, by a
dash in front. Steps that only look change no object. Where no step hands an exclusion on, two
slots hold the same one only if they name the same object, and excluding one fragment does nothing
to the others.

A step makes a few moves, each of one kind (`Moves`, `moves_step`): a flag is added or set, an
object is added or replaced, a name is given, an answer is kept. What every move keeps is kept by a
run (`run_of_moves`):

* *existence* (`WellFormed`): names lead to objects, and objects hold exclusions that exist.
* *ownership* (`Separate`): no two objects hold the same exclusion. Moves keep it unless they are
  `shared`, that is, unless a step hands an exclusion on.
-/

namespace SearchQuery

open Relation (ReflTransGen)

/-- Whether a step hands an exclusion on to a fragment. -/
def Step.shares : Step → Bool
  | .new _ _ (some _) _ => true
  | .set _ (.exclusion _) => true
  | _ => false

/-- Whether a step only looks. -/
def Step.looks : Step → Bool
  | .view _ => true
  | .compare _ _ => true
  | .assemble _ => true
  | .contains _ => true
  | _ => false

namespace Workbench

/-! ## Holding an exclusion -/

/-- The exclusion that an object is or holds, by the number of the object. -/
def held? (w : Workbench) (i : Nat) : Option Nat := (w.objects[i]?).bind flagOf?

theorem held?_add (w : Workbench) (slot : Text) (o : Object) (i : Nat) :
    (w.add slot o).held? i = if i = w.objects.length then flagOf? o else w.held? i := by
  simp only [held?, add, List.getElem?_append]
  by_cases hi : i < w.objects.length
  · rw [if_pos hi, if_neg (Nat.ne_of_lt hi)]
  · rw [if_neg hi, List.getElem?_eq_none (Nat.le_of_not_lt hi)]
    by_cases he : i = w.objects.length
    · simp [he]
    · rw [if_neg he, List.getElem?_eq_none (by simp; omega)]

theorem held?_replace {w : Workbench} {i : Nat} {o : Object} (h : w.objects[i]? = some o)
    (p : Object) (j : Nat) :
    (w.replace i p).held? j = if j = i then flagOf? p else w.held? j := by
  have hi : i < w.objects.length := (List.getElem?_eq_some_iff.1 h).1
  simp only [held?, replace, List.getElem?_set]
  by_cases hj : j = i
  · simp [hj, hi]
  · simp [hj, Ne.symm hj]

theorem object_of_find? {w : Workbench} {slot : Text} {i : Nat} {o : Object}
    (h : w.find? slot = some (i, o)) : w.objects[i]? = some o := by
  obtain ⟨n, -, hn⟩ := Option.bind_eq_some_iff.1 h
  obtain ⟨p, hp, heq⟩ := Option.map_eq_some_iff.1 hn
  obtain ⟨rfl, rfl⟩ := Prod.mk.inj heq
  exact hp

theorem held?_of_find? {w : Workbench} {slot : Text} {i : Nat} {o : Object}
    (h : w.find? slot = some (i, o)) : w.held? i = flagOf? o := by
  rw [held?, object_of_find? h]
  rfl

/-! ## Moves -/

/-- One change of a workbench; an exclusion may be handed on where it is `shared`. -/
inductive Moves (shared : Bool) (w : Workbench) : Workbench → Prop
  | answer (last : Option QueryResult) (next : Nat) :
      Moves shared w { w with last := last, nextSerial := next }
  | name (slot : Text) {n : Nat} (hn : n < w.objects.length) :
      Moves shared w { w with slots := w.slots.put slot n }
  | flag (excluded : Bool) : Moves shared w (w.addFlag excluded)
  | exclude (n : Nat) : Moves shared w (w.setFlag n)
  | object (slot : Text) {o : Object} (hlt : ∀ n, flagOf? o = some n → n < w.flags.length)
      (hfree : ∀ n, flagOf? o = some n → shared = true ∨ ∀ i, w.held? i ≠ some n) :
      Moves shared w (w.add slot o)
  | replace {i : Nat} {o p : Object} (ho : w.objects[i]? = some o)
      (hlt : ∀ n, flagOf? p = some n → n < w.flags.length)
      (hkept : ∀ n, flagOf? p = some n → shared = true ∨ flagOf? o = some n) :
      Moves shared w (w.replace i p)

/-! ## Existence -/

/-- Objects hold exclusions that exist, and names lead to objects. -/
structure WellFormed (w : Workbench) : Prop where
  held_lt : ∀ i n, w.held? i = some n → n < w.flags.length
  named_lt : ∀ slot n, w.slots.find? slot = some n → n < w.objects.length

theorem wellFormed_empty : empty.WellFormed where
  held_lt i n h := by simp [held?, empty] at h
  named_lt slot n h := by cases h

theorem WellFormed.moves {shared : Bool} {w w' : Workbench} (h : w.WellFormed)
    (m : Moves shared w w') : w'.WellFormed := by
  cases m with
  | answer last next => exact ⟨h.held_lt, h.named_lt⟩
  | name slot hn =>
    refine ⟨h.held_lt, ?_⟩
    intro other k hk
    rw [Entries.find?_put] at hk
    split at hk
    · obtain rfl := Option.some.inj hk
      exact hn
    · exact h.named_lt other k hk
  | flag excluded =>
    refine ⟨?_, h.named_lt⟩
    intro i n hi
    rw [addFlag, List.length_append]
    exact Nat.lt_add_right _ (h.held_lt i n hi)
  | exclude k =>
    refine ⟨?_, h.named_lt⟩
    intro i n hi
    rw [setFlag, List.length_set]
    exact h.held_lt i n hi
  | object slot hlt hfree =>
    constructor
    · intro i n hi
      rw [held?_add] at hi
      split at hi
      · exact hlt n hi
      · exact h.held_lt i n hi
    · intro other k hk
      rw [add, List.length_append]
      simp only [add, Entries.find?_put] at hk
      split at hk
      · obtain rfl := Option.some.inj hk
        exact Nat.lt_succ_self _
      · exact Nat.lt_add_right _ (h.named_lt other k hk)
  | replace ho hlt hkept =>
    constructor
    · intro j n hj
      rw [held?_replace ho] at hj
      split at hj
      · exact hlt n hj
      · exact h.held_lt j n hj
    · intro other k hk
      rw [Workbench.replace, List.length_set]
      exact h.named_lt other k hk

/-! ## Ownership -/

/-- No two objects hold the same exclusion. -/
def Separate (w : Workbench) : Prop :=
  ∀ i j n, w.held? i = some n → w.held? j = some n → i = j

theorem separate_empty : empty.Separate := by
  intro i j n hi
  simp [held?, empty] at hi

theorem Separate.moves {w w' : Workbench} (h : w.Separate) (m : Moves false w w') :
    w'.Separate := by
  cases m with
  | answer last next => exact h
  | name slot hn => exact h
  | flag excluded => exact h
  | exclude n => exact h
  | @object slot o hlt hfree =>
    -- A new object has an exclusion that no object holds, because nothing is shared.
    have hnew : ∀ j n, flagOf? o = some n → w.held? j = some n → False := by
      intro j n ho hj
      rcases hfree n ho with hs | hn
      · exact Bool.noConfusion hs
      · exact hn j hj
    intro i j n hi hj
    rw [held?_add] at hi hj
    split at hi <;> split at hj
    · omega
    · exact (hnew j n hi hj).elim
    · exact (hnew i n hj hi).elim
    · exact h i j n hi hj
  | @replace k o p ho hlt hkept =>
    -- What is put in the place of an object keeps its exclusion or has none.
    have hold : ∀ n, flagOf? p = some n → w.held? k = some n := by
      intro n hp
      rcases hkept n hp with hs | hn
      · exact Bool.noConfusion hs
      · rw [held?, ho]
        exact hn
    intro i j n hi hj
    rw [held?_replace ho] at hi hj
    split at hi <;> split at hj
    · omega
    · subst_vars
      exact h _ _ n (hold n hi) hj
    · subst_vars
      exact h _ _ n hi (hold n hj)
    · exact h i j n hi hj

/-! ## Flags -/

theorem flag_of_moves {shared : Bool} {w w' : Workbench} (m : Moves shared w w') {n : Nat}
    (h : w.flag n = true) : w'.flag n = true := by
  cases m with
  | answer last next => exact h
  | name slot hn => exact h
  | flag excluded =>
    rw [flag_addFlag]
    split
    · rename_i hn
      simp [flag, hn] at h
    · exact h
  | exclude k => rw [flag_setFlag, h, Bool.true_or]
  | object slot hlt hfree => exact h
  | replace ho hlt hkept => exact h

/-! ## Steps are moves -/

theorem moves_addFragment {shared : Bool} {w : Workbench} {n : Nat} (hlt : n < w.flags.length)
    (hfree : shared = true ∨ ∀ i, w.held? i ≠ some n) (slot : Text) (term : Term)
    (exclusions : Nat) :
    ReflTransGen (Moves shared) w (w.addFragment slot term n exclusions) := by
  have hset : ReflTransGen (Moves shared) w (if exclusions = 0 then w else w.setFlag n) := by
    split
    · exact .refl
    · exact .single (.exclude n)
  refine hset.tail (.object slot ?_ ?_)
  · rintro m hm
    obtain rfl : n = m := Option.some.inj hm
    split
    · exact hlt
    · rwa [setFlag, List.length_set]
  · rintro m hm
    obtain rfl : n = m := Option.some.inj hm
    refine hfree.imp_right fun hfree i => ?_
    split <;> exact hfree i

theorem WellFormed.moves_addOwn {w : Workbench} (h : w.WellFormed) (shared : Bool) (slot : Text)
    (f : Fragment) (exclusions : Nat) :
    ReflTransGen (Moves shared) w (w.addOwn slot f exclusions) := by
  refine .head (.flag f.excluded) (moves_addFragment ?_ (.inr ?_) slot f.term exclusions)
  · rw [addFlag, List.length_append]
    exact Nat.lt_succ_self _
  · intro i hi
    exact absurd (h.held_lt i _ hi) (Nat.lt_irrefl _)

theorem WellFormed.lt_of_slot {w : Workbench} (h : w.WellFormed) {slot : Text} {n : Nat}
    (hn : ((w.find? slot).bind fun p => flagOf? p.2) = some n) : n < w.flags.length := by
  obtain ⟨⟨i, o⟩, hf, ho⟩ := Option.bind_eq_some_iff.1 hn
  exact h.held_lt i n ((held?_of_find? hf).trans ho)

theorem WellFormed.moves_stepSet {shared : Bool} {w : Workbench} (h : w.WellFormed) (slot : Text)
    (a : Assignment) (hs : (Step.set slot a).shares = true → shared = true) :
    ReflTransGen (Moves shared) w (w.stepSet slot a).1 := by
  unfold stepSet
  split
  · rename_i i term n hf
    have ho := object_of_find? hf
    have hn : n < w.flags.length := h.held_lt i n (held?_of_find? hf)
    -- An assignment to any other field keeps the exclusion of the fragment.
    have hassign : ∀ term', ReflTransGen (Moves shared) w (w.replace i (.fragment term' n)) := by
      intro term'
      exact .single (.replace ho (fun m hm => Option.some.inj hm ▸ hn) fun m hm => .inr hm)
    cases a with
    | exclusion source =>
      cases hm : ((w.find? source).bind fun p => flagOf? p.2) with
      | none =>
        simp only [hm]
        exact .refl
      | some m =>
        simp only [hm]
        exact .single (.replace ho (fun k hk => Option.some.inj hk ▸ h.lt_of_slot hm)
          fun _ _ => .inl (hs rfl))
    | _ => exact hassign _
  · exact .refl
  · exact .refl

/-- **A step makes moves**, and none that hands an exclusion on unless the step does. -/
theorem WellFormed.moves_step {shared : Bool} {w : Workbench} (h : w.WellFormed) (s : Step)
    (hs : s.shares = true → shared = true) : ReflTransGen (Moves shared) w (w.step s).1 := by
  cases s with
  | new slot term exclusion exclusions =>
    cases exclusion with
    | none => exact h.moves_addOwn _ slot ⟨term, false⟩ exclusions
    | some source =>
      simp only [step]
      split
      · rename_i n hn
        exact moves_addFragment (h.lt_of_slot hn) (.inl (hs rfl)) slot term exclusions
      · exact .refl
  | build slot qualifier timezoned exclusions =>
    simp only [step]
    split
    · exact h.moves_addOwn _ slot _ exclusions
    · exact .refl
  | newForeign slot f =>
    refine .single (.object slot ?_ ?_) <;> intro n hn <;> cases hn
  | newExclusion slot excluded =>
    refine .head (.flag excluded) (.single (.object slot ?_ ?_))
    · intro n hn
      obtain rfl := Option.some.inj hn
      rw [addFlag, List.length_append]
      exact Nat.lt_succ_self _
    · intro n hn
      -- The exclusion is new, so no object has its number.
      obtain rfl := Option.some.inj hn
      exact .inr fun i hi => absurd (h.held_lt i _ hi) (Nat.lt_irrefl _)
  | «alias» slot target =>
    simp only [step]
    split
    · rename_i n hn
      exact .single (.name slot (h.named_lt target n hn))
    · exact .refl
  | set slot a => exact h.moves_stepSet slot a hs
  | exclude slot =>
    simp only [step, stepExclude]
    split
    · split
      · exact .single (.exclude _)
      · exact .single (.exclude _)
      · exact .refl
    · exact .refl
  | view slot => exact .refl
  | compare a b => rw [step_compare]
  | assemble slots =>
    simp only [step, stepAssemble]
    split
    · exact .refl
    · split
      · exact .single (.answer _ _)
      · exact .refl
  | contains q => exact .refl

/-! ## Runs -/

theorem closed_of_moves {shared : Bool} {P : Workbench → Prop}
    (hP : ∀ {w w'}, Moves shared w w' → P w → P w') {w w' : Workbench}
    (m : ReflTransGen (Moves shared) w w') (hw : P w) : P w' := by
  induction m with
  | refl => exact hw
  | tail _ m ih => exact hP m ih

/-- **What moves keep, a run keeps.** -/
theorem run_of_moves (shared : Bool) {P : Workbench → Prop}
    (hP : ∀ {w w'}, Moves shared w w' → P w → P w') {steps : List Step}
    (hs : ∀ s ∈ steps, s.shares = true → shared = true) {w : Workbench} (h : w.WellFormed)
    (hw : P w) : P (w.run steps).1 := by
  induction steps generalizing w with
  | nil => exact hw
  | cons s rest ih =>
    obtain ⟨hfirst, hrest⟩ := List.forall_mem_cons.1 hs
    have moves := h.moves_step s hfirst
    exact ih hrest (closed_of_moves (fun m hw => hw.moves m) moves h) (closed_of_moves hP moves hw)

theorem wellFormed_run (steps : List Step) : (empty.run steps).1.WellFormed :=
  run_of_moves true (fun m hw => hw.moves m) (fun _ _ _ => rfl) wellFormed_empty wellFormed_empty

/-! ## Renderings -/

/-- What excluding does to a rendering: a dash in front where the exclusion is held and was not
set. -/
theorem render_setFlag {w : Workbench} {n : Nat} (hn : n < w.flags.length) (o : Object) :
    ((w.setFlag n).itemOf o).render =
      if flagOf? o = some n ∧ w.flag n = false then
        (w.itemOf o).render.map (.char '-' :: ·)
      else (w.itemOf o).render := by
  have hflag : ∀ m, (w.setFlag n).flag m = if m = n then true else w.flag m := by
    intro m
    rw [flag_setFlag]
    by_cases hm : m = n <;> simp [hm, hn]
  cases o with
  | fragment term m =>
    simp only [itemOf, flagOf?, hflag, Option.some.injEq]
    by_cases hm : m = n
    · subst hm
      cases hw : w.flag m with
      | true => simp
      | false =>
        simp only [and_self, if_true]
        exact Fragment.render_exclude term
    · simp [hm]
  | exclusion m =>
    simp only [itemOf, flagOf?, hflag, Option.some.injEq]
    by_cases hm : m = n
    · subst hm
      cases hw : w.flag m <;> simp [Item.render, dash, Except.map]
    · simp [hm]
  | foreign f => rfl

/-! ## Excluding and looking -/

theorem step_exclude_of_holds {w : Workbench} {slot : Text} {i n : Nat} {o : Object}
    (h : w.find? slot = some (i, o)) (ho : flagOf? o = some n) :
    (w.step (.exclude slot)).1 = w.setFlag n := by
  cases o with
  | fragment term m =>
    obtain rfl : m = n := Option.some.inj ho
    simp only [step, stepExclude, h]
  | exclusion m =>
    obtain rfl : m = n := Option.some.inj ho
    simp only [step, stepExclude, h]
  | foreign f => cases ho

theorem step_exclude_of_not_holds {w : Workbench} {slot : Text}
    (h : ((w.find? slot).bind fun p => flagOf? p.2) = none) : (w.step (.exclude slot)).1 = w := by
  cases hf : w.find? slot with
  | none => simp only [step, stepExclude, hf]
  | some p =>
    obtain ⟨i, o⟩ := p
    rw [hf] at h
    cases o with
    | fragment term n => cases h
    | exclusion n => cases h
    | foreign f => simp only [step, stepExclude, hf]

/-- **Excluding** sets one flag, and nothing else is new. -/
theorem WellFormed.step_exclude {w : Workbench} (hw : w.WellFormed) {slot : Text} {i n : Nat}
    {o : Object} (h : w.find? slot = some (i, o)) (ho : flagOf? o = some n) :
    let after := (w.step (.exclude slot)).1
    after = { w with flags := after.flags } ∧ after.flags.length = w.flags.length ∧
      (∀ m, after.flag m = (w.flag m || decide (m = n))) ∧
      ∀ p, (after.itemOf p).render =
        if flagOf? p = some n ∧ w.flag n = false then (w.itemOf p).render.map (.char '-' :: ·)
        else (w.itemOf p).render := by
  have hn : n < w.flags.length := hw.held_lt i n ((held?_of_find? h).trans ho)
  rw [step_exclude_of_holds h ho]
  refine ⟨rfl, List.length_set .., ?_, render_setFlag hn⟩
  intro m
  rw [flag_setFlag, decide_eq_true hn, Bool.and_true]

theorem setFlag_of_apart (w : Workbench) {n : Nat} {p : Object} (h : flagOf? p ≠ some n) :
    (w.setFlag n).viewOf p = w.viewOf p ∧ (w.setFlag n).itemOf p = w.itemOf p := by
  have hflag : ∀ m, m ≠ n → (w.setFlag n).flag m = w.flag m := by
    intro m hm
    rw [flag_setFlag]
    simp [hm]
  cases p with
  | fragment term m =>
    have hm : m ≠ n := fun he => h (congrArg some he)
    simp only [viewOf, itemOf, hflag m hm, and_self]
  | exclusion m =>
    have hm : m ≠ n := fun he => h (congrArg some he)
    simp only [viewOf, itemOf, hflag m hm, and_self]
  | foreign f => exact ⟨rfl, rfl⟩

/-- Two slots that share an exclusion name the same object. -/
theorem Separate.eq_of_find? {w : Workbench} (h : w.Separate) {a b : Text} {i j n : Nat}
    {o p : Object} (ha : w.find? a = some (i, o)) (hb : w.find? b = some (j, p))
    (ho : flagOf? o = some n) (hp : flagOf? p = some n) : i = j :=
  h i j n ((held?_of_find? ha).trans ho) ((held?_of_find? hb).trans hp)

/-- Where exclusions are not shared, excluding one object does nothing to the others. -/
theorem Separate.step_exclude {w : Workbench} (h : w.Separate) {a b : Text} {i j : Nat}
    {o p : Object} (ha : w.find? a = some (i, o)) (hb : w.find? b = some (j, p)) (hne : i ≠ j) :
    let after := (w.step (.exclude a)).1
    after.find? b = some (j, p) ∧ after.viewOf p = w.viewOf p ∧ after.itemOf p = w.itemOf p := by
  cases ho : flagOf? o with
  | none =>
    rw [step_exclude_of_not_holds (by rw [ha]; exact ho)]
    exact ⟨hb, rfl, rfl⟩
  | some n =>
    rw [step_exclude_of_holds ha ho]
    exact ⟨hb, setFlag_of_apart w fun hp => hne (h.eq_of_find? ha hb ho hp)⟩

theorem step_of_looks (w : Workbench) {s : Step} (hs : s.looks = true) :
    (w.step s).1.flags = w.flags ∧ (w.step s).1.objects = w.objects ∧
      (w.step s).1.slots = w.slots := by
  cases s with
  | view slot => exact ⟨rfl, rfl, rfl⟩
  | compare a b =>
    rw [step_compare]
    exact ⟨rfl, rfl, rfl⟩
  | assemble slots =>
    simp only [step, stepAssemble]
    split
    · exact ⟨rfl, rfl, rfl⟩
    · split <;> exact ⟨rfl, rfl, rfl⟩
  | contains q => exact ⟨rfl, rfl, rfl⟩
  | _ => cases hs

/-- **Exclusions over a run**: they stay set, excluding sets the one that is held, looking changes
nothing, and without handing one on every object has its own. -/
theorem run_exclusions (steps : List Step) :
    let w := (empty.run steps).1
    (∀ later n, w.flag n = true → (w.run later).1.flag n = true) ∧
    (∀ slot i o n, w.find? slot = some (i, o) → flagOf? o = some n →
      let after := (w.step (.exclude slot)).1
      after = { w with flags := after.flags } ∧ after.flags.length = w.flags.length ∧
        (∀ m, after.flag m = (w.flag m || decide (m = n))) ∧
        ∀ p, (after.itemOf p).render =
          if flagOf? p = some n ∧ w.flag n = false then (w.itemOf p).render.map (.char '-' :: ·)
          else (w.itemOf p).render) ∧
    (∀ slot, ((w.find? slot).bind fun p => flagOf? p.2) = none →
      (w.step (.exclude slot)).1 = w) ∧
    (∀ s, s.looks = true → (w.step s).1.flags = w.flags ∧ (w.step s).1.objects = w.objects ∧
      (w.step s).1.slots = w.slots) ∧
    ((∀ s ∈ steps, s.shares = false) → ∀ a b i j o p,
      w.find? a = some (i, o) → w.find? b = some (j, p) →
      ((∃ n, flagOf? o = some n ∧ flagOf? p = some n) → i = j) ∧
      (i ≠ j → let after := (w.step (.exclude a)).1
        after.find? b = some (j, p) ∧ after.viewOf p = w.viewOf p ∧
          after.itemOf p = w.itemOf p)) := by
  intro w
  have hw : w.WellFormed := wellFormed_run steps
  refine ⟨?_, ?_, ?_, ?_, ?_⟩
  · intro later n hn
    exact run_of_moves true (P := fun w => w.flag n = true) (fun m hn => flag_of_moves m hn)
      (fun _ _ _ => rfl) hw hn
  · intro slot i o n h ho
    exact hw.step_exclude h ho
  · intro slot h
    exact step_exclude_of_not_holds h
  · intro s hs
    exact w.step_of_looks hs
  · intro hs a b i j o p ha hb
    -- As long as no step shares an exclusion, two objects hold two.
    have own : w.Separate := run_of_moves false (fun m hw => hw.moves m)
      (fun s hmem => by simp [hs s hmem]) wellFormed_empty separate_empty
    refine ⟨?_, own.step_exclude ha hb⟩
    rintro ⟨n, ho, hp⟩
    exact own.eq_of_find? ha hb ho hp

/-- Two fragments of which the first has a second name; then a third that is given the exclusion of
the first, and is excluded together with it. -/
theorem run_exclusions_three :
    let steps : List Step := [.new "a".text (.text "x".text) none 0,
      .new "b".text (.tag "is".text "open".text) none 0, .alias "c".text "a".text]
    let sharing := steps ++ [.new "d".text (.tag "org".text "o".text) (some "a".text) 0]
    let w := (empty.run steps).1
    let v := (empty.run sharing).1
    let first : Object := .fragment (.text "x".text) 0
    let second : Object := .fragment (.tag "is".text "open".text) 1
    let third : Object := .fragment (.tag "org".text "o".text) 0
    (∀ s ∈ steps, s.shares = false) ∧
      w.find? "c".text = some (0, first) ∧ w.find? "b".text = some (1, second) ∧
      (w.step (.exclude "c".text)).1.itemOf second = w.itemOf second ∧
      v.find? "c".text = some (0, first) ∧
      ((v.step (.exclude "c".text)).1.itemOf third).render = .ok "-org:o".text ∧
      ∀ later, ((v.step (.exclude "c".text)).1.run later).1.flag 0 = true := by
  intro steps sharing w v first second third
  have hs : ∀ s ∈ steps, s.shares = false := by decide
  have hc : w.find? "c".text = some (0, first) := rfl
  have hb : w.find? "b".text = some (1, second) := rfl
  have hv : v.find? "c".text = some (0, first) := rfl
  obtain ⟨-, -, -, -, apart⟩ := run_exclusions steps
  obtain ⟨-, excluded, -⟩ := run_exclusions sharing
  obtain ⟨-, -, -, render⟩ := excluded "c".text 0 first 0 hv rfl
  -- The run that excludes is a run of its own, and its flag is set.
  have stays := (run_exclusions (sharing ++ [.exclude "c".text])).1
  exact ⟨hs, hc, hb, ((apart hs _ _ _ _ _ _ hc hb).2 (by decide)).2.2, hv,
    (render third).trans rfl, fun later => stays later 0 rfl⟩

end Workbench

end SearchQuery
