/-!
# Entries

A table that remembers the order in which its keys first arrived. Writing to a key
that is present changes its value and moves nothing; a new key goes to the end.

`keys_put` says both at once, and `find?_put` says what is found after a write.
-/

namespace SearchQuery

abbrev Entries (κ α : Type) := List (κ × α)

namespace Entries

variable {κ α : Type} [DecidableEq κ]

def keys (es : Entries κ α) : List κ := es.map (·.1)

def find? : Entries κ α → κ → Option α
  | [], _ => none
  | (k, v) :: r, key => if k = key then some v else find? r key

/-- Writes a value under a key. -/
def put : Entries κ α → κ → α → Entries κ α
  | [], key, value => [(key, value)]
  | (k, v) :: r, key, value =>
    if k = key then (k, value) :: r else (k, v) :: put r key value

/-- Writes the later entries one after the other onto the earlier ones. -/
def merge (es later : Entries κ α) : Entries κ α :=
  later.foldl (fun acc e => put acc e.1 e.2) es

/-- The entries in a table in which a later value of a key takes the place of the first. -/
def ofList (es : List (κ × α)) : Entries κ α := merge [] es

/-- The entries under other keys. -/
def erase (es : Entries κ α) (key : κ) : Entries κ α := es.filter fun e => e.1 ≠ key

theorem find?_put (es : Entries κ α) (key other : κ) (value : α) :
    (es.put key value).find? other = if key = other then some value else es.find? other := by
  induction es with
  | nil => simp [put, find?]
  | cons e r ih =>
    obtain ⟨k, v⟩ := e
    by_cases hk : k = key
    · subst hk
      by_cases ho : k = other <;> simp [put, find?, ho]
    · by_cases ho : k = other
      · subst ho
        simp [put, find?, hk, Ne.symm hk]
      · simp [put, find?, hk, ho, ih]

/-- A present key keeps its place and a new one goes to the end. -/
theorem keys_put (es : Entries κ α) (key : κ) (value : α) :
    (es.put key value).keys = if key ∈ es.keys then es.keys else es.keys ++ [key] := by
  induction es with
  | nil => simp [put, keys]
  | cons e r ih =>
    obtain ⟨k, v⟩ := e
    by_cases hk : k = key
    · subst hk; simp [put, keys]
    · have hn : ¬ key = k := fun h => hk h.symm
      simp only [keys] at ih
      simp only [put, if_neg hk, keys, List.map_cons, List.mem_cons, hn, false_or, ih]
      by_cases hm : key ∈ r.map (·.1) <;> simp [hm]

@[simp] theorem merge_nil (es : Entries κ α) : es.merge [] = es := rfl

theorem merge_cons (es later : Entries κ α) (key : κ) (value : α) :
    es.merge ((key, value) :: later) = (es.put key value).merge later := rfl

theorem merge_append (es a b : Entries κ α) : es.merge (a ++ b) = (es.merge a).merge b :=
  List.foldl_append

end Entries

end SearchQuery
