import Mathlib.Logic.Function.Iterate
import SearchQuery.Proofs.DateValues
import SearchQuery.Proofs.Timestamp.ReadBack

/-!
# Single dates are read back

What a query says about a single timestamp can be given as the value of a qualifier again.

**Theorem (`Fragment.reread_single`).** The value that `created` or `closed` renders to, behind any
operator and in either format, is read as the same operator with what the format shows of the
timestamp, and that renders to the same text. So rendering and reading once gives a normal form:
doing it again changes nothing.

The operator and the written timestamp are the two parts that the value spells (`spellsOne_write`),
and the dots in an offset are too far apart for a range (`not_overrun_write`). What a format shows
is written the same way (`write_shown`), so from the first step on there is one text to be read.
-/

namespace SearchQuery

/-! ## What a format shows -/

namespace DateFormat

theorem write_shown (f : DateFormat) (t : Timestamp) : f.write (f.shown t) = f.write t := by
  cases f with
  | date => rfl
  | timezoned => cases t <;> rfl

theorem dotsApart_write (f : DateFormat) (t : Timestamp) : DotsApart (f.write t) := by
  have hcut := cutAtDots_eq_some_iff.1 (f.cutsBehind_write t [])
  rw [dots_infix_iff, not_not] at hcut
  exact List.IsChain.left_of_append hcut.2

theorem not_overrun_write (f : DateFormat) (t : Timestamp) : ¬ Overrun (f.write t) :=
  fun h => (parse_dots_iff.2 h).2 (f.dotsApart_write t)

end DateFormat

/-! ## Operators in front -/

namespace Comparison

theorem symbol_of_mem_operators {c : Comparison} (h : c ∈ operators) :
    ∃ symbol ∈ spellings, c.symbol? = some symbol ∧ Visible symbol := by
  revert c
  decide

end Comparison

/-- A symbol and a written timestamp spell one timestamp. -/
theorem spellsOne_write {c : Comparison} {symbol : Text} (hspelling : symbol ∈ Comparison.spellings)
    (hsymbol : c.symbol? = some symbol) (hvisible : Visible symbol) (f : DateFormat)
    (t : Timestamp) :
    SpellsOne (symbol ++ f.write t) symbol (f.write t) c (f.shown t) where
  operator := hspelling
  comparison := Comparison.parse_symbol? hsymbol
  split := (visible_append.2 ⟨hvisible, f.visible_write t⟩).trim_eq
  reads := f.parse_write t

namespace Fragment

theorem render_single {c : Comparison} {symbol : Text} (h : c.symbol? = some symbol) (tag : Text)
    (f : DateFormat) (t : Timestamp) :
    (Fragment.mk (.single tag f t c) false).render =
      .ok (tag ++ .char ':' :: (symbol ++ f.write t)) := by
  simp [render, Term.render, Comparison.render, h, dash, Except.map]

/-- Renders a fragment, and reads what stands behind the first colon as a value of the key that
stands before it. -/
def reread (timezoned : Bool) (f : Fragment) : Option Fragment := do
  let text ← f.render.toOption
  let (key, value) ← cutAt ':' text
  ((Qualifier.mk key value false).fragment timezoned).toOption

theorem colon_not_mem_name (key : Key) : .char ':' ∉ key.name := by
  cases key <;> decide

theorem reread_eq_some {timezoned : Bool} {f g : Fragment} {key : Key} {value : Text}
    (hrender : f.render = .ok (key.name ++ .char ':' :: value))
    (hread : (Qualifier.mk key.name value false).fragment timezoned = .ok g) :
    f.reread timezoned = some g := by
  rw [reread, hrender]
  simp only [Except.toOption, Option.bind_eq_bind, Option.bind_some,
    cutAt_append (colon_not_mem_name key), hread]

/-- **A single timestamp is read back** from its rendering as what the format shows of it, and
stays so however often it is rendered and read. -/
theorem reread_single {key : Key} (hkey : key = .created ∨ key = .closed) {c : Comparison}
    (hc : c ∈ Comparison.operators) (timezoned : Bool) (t : Timestamp) :
    let format := DateFormat.ofFlag timezoned
    let f := Fragment.mk (.single key.name format t c) false
    let g := Fragment.mk (.single key.name format (format.shown t) c) false
    ∃ value, f.render = .ok (key.name ++ .char ':' :: value) ∧
      (Qualifier.mk key.name value false).fragment timezoned = .ok g ∧ g.render = f.render ∧
      ∀ n, (fun r => r.bind (reread timezoned))^[n + 1] (some f) = some g := by
  intro format f g
  obtain ⟨symbol, hspelling, hsymbol, hvisible⟩ := Comparison.symbol_of_mem_operators hc
  have hread : (Qualifier.mk key.name (symbol ++ format.write t) false).fragment timezoned =
      .ok g := by
    rw [Qualifier.fragment_eq_ok_iff hkey]
    have hspells := spellsOne_write hspelling hsymbol hvisible format t
    exact ⟨rfl, hspells.dateTerm_eq (format.not_overrun_write t) key format⟩
  have hf : f.render = .ok (key.name ++ .char ':' :: (symbol ++ format.write t)) :=
    render_single hsymbol _ _ _
  have hg : g.render = .ok (key.name ++ .char ':' :: (symbol ++ format.write t)) := by
    rw [render_single hsymbol, format.write_shown]
  refine ⟨_, hf, hread, hg.trans hf.symm, fun n => ?_⟩
  -- Both render to one text, so the first step leads to `g` and the others stay there.
  have hstep : reread timezoned f = some g := reread_eq_some hf hread
  have hstay : reread timezoned g = some g := reread_eq_some hg hread
  rw [Function.iterate_succ_apply]
  simp only [Option.bind_some, hstep]
  exact Function.iterate_fixed hstay n

/-- A time to the microsecond, almost a day behind UTC and in a year of three digits, loses its
places of a second once. -/
theorem reread_single_behind :
    let t : Timestamp := .dateTime ⟨(Date.of? 999 2 28).get rfl, ⟨23, 59, 58, 999999⟩,
      some ⟨-86399999999, by decide⟩, none⟩
    let g := Fragment.mk (.single Key.closed.name .timezoned (DateFormat.timezoned.shown t) .leq)
      false
    (Key.closed = .created ∨ Key.closed = .closed) ∧ Comparison.leq ∈ Comparison.operators ∧
      g.render = .ok "closed:<=0999-02-28T23:59:58-23:59:59.999999".text ∧
      (fun r => r.bind (reread true))^[3]
        (some (Fragment.mk (.single Key.closed.name .timezoned t .leq) false)) = some g := by
  intro t g
  have hkey : Key.closed = .created ∨ Key.closed = .closed := .inr rfl
  have hc : Comparison.leq ∈ Comparison.operators := by decide
  obtain ⟨value, -, -, -, hrun⟩ := reread_single hkey hc true t
  exact ⟨hkey, hc, by decide, hrun 2⟩

end Fragment

end SearchQuery
