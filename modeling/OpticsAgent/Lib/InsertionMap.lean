import Mathlib

/-!
Maps that remember the order in which their keys came, as ECMAScript's `Map`:
setting a key that is there changes its value in place, a new key goes to the
end.
-/

namespace OpticsAgent.Lib

variable {κ ν : Type*} [DecidableEq κ]

-- Named, so that the empty map is the same term in every module.
theorem nodup_keys_nil {κ ν : Type*} : (([] : List (κ × ν)).map Prod.fst).Nodup := List.nodup_nil

/-- Entries in insertion order, one for each key. -/
structure InsertionMap (κ ν : Type*) where
  entries : List (κ × ν) := []
  nodup : (entries.map Prod.fst).Nodup := by
    first | exact nodup_keys_nil | simp

namespace InsertionMap

def putEntry (key : κ) (value : ν) : List (κ × ν) → List (κ × ν)
  | [] => [(key, value)]
  | entry :: rest =>
      if entry.1 = key then (key, value) :: rest else entry :: putEntry key value rest

theorem keys_putEntry (key : κ) (value : ν) (entries : List (κ × ν)) :
    (putEntry key value entries).map Prod.fst =
      if key ∈ entries.map Prod.fst then entries.map Prod.fst
      else entries.map Prod.fst ++ [key] := by
  induction entries with
  | nil => simp [putEntry]
  | cons entry rest ih =>
      by_cases h : entry.1 = key
      · simp [putEntry, h]
      · rw [putEntry, if_neg h, List.map_cons, ih, List.map_cons]
        have hmem : key ∈ entry.1 :: rest.map Prod.fst ↔ key ∈ rest.map Prod.fst := by
          simp [Ne.symm h]
        by_cases hrest : key ∈ rest.map Prod.fst
        · rw [if_pos hrest, if_pos (hmem.mpr hrest)]
        · rw [if_neg hrest, if_neg (mt hmem.mp hrest), List.cons_append]

def set (m : InsertionMap κ ν) (key : κ) (value : ν) : InsertionMap κ ν where
  entries := putEntry key value m.entries
  nodup := by
    rw [keys_putEntry]
    split_ifs with h
    · exact m.nodup
    · exact List.nodup_append.mpr ⟨m.nodup, List.nodup_singleton key, by
        intro a ha b hb hab
        rw [List.mem_singleton.mp hb] at hab
        exact h (hab ▸ ha)⟩

def get (m : InsertionMap κ ν) (key : κ) : Option ν :=
  (m.entries.find? fun entry => entry.1 = key).map Prod.snd

/-- The first entry that satisfies `p`, as a loop with a `break` finds it. -/
def first (m : InsertionMap κ ν) (p : κ × ν → Bool) : Option (κ × ν) :=
  m.entries.find? p

omit [DecidableEq κ] in
/-- An entry is the first one when no entry before it satisfies the test. -/
theorem first_eq_of_split {m : InsertionMap κ ν} {p : κ × ν → Bool}
    {before later : List (κ × ν)} {entry : κ × ν}
    (hsplit : m.entries = before ++ entry :: later) (hentry : p entry = true)
    (hbefore : ∀ e ∈ before, p e = false) : m.first p = some entry := by
  have hnone : before.find? p = none := by
    rw [List.find?_eq_none]
    intro e he
    simp [hbefore e he]
  rw [first, hsplit, List.find?_append, hnone, Option.none_or, List.find?_cons_of_pos hentry]

omit [DecidableEq κ] in
/-- Where an entry before it satisfies the test, another key is found. -/
theorem first_ne_of_split {m : InsertionMap κ ν} {p : κ × ν → Bool}
    {before later : List (κ × ν)} {entry : κ × ν}
    (hsplit : m.entries = before ++ entry :: later) (hbefore : ∃ e ∈ before, p e = true) :
    ∃ found, m.first p = some found ∧ found.1 ≠ entry.1 := by
  obtain ⟨found, hfound⟩ := Option.isSome_iff_exists.mp (List.find?_isSome.mpr hbefore)
  have hmem := List.mem_of_find?_eq_some hfound
  refine ⟨found, ?_, ?_⟩
  · rw [first, hsplit, List.find?_append, hfound, Option.some_or]
  · have hnodup := m.nodup
    rw [hsplit, List.map_append, List.map_cons] at hnodup
    exact (List.nodup_append.mp hnodup).2.2 found.1 (List.mem_map_of_mem hmem) entry.1
      List.mem_cons_self

/-! ## One key -/

theorem find?_putEntry (key other : κ) (value : ν) (entries : List (κ × ν)) :
    ((putEntry key value entries).find? fun entry => entry.1 = other).map Prod.snd =
      if key = other then some value
      else (entries.find? fun entry => entry.1 = other).map Prod.snd := by
  induction entries with
  | nil => by_cases h : key = other <;> simp [putEntry, h]
  | cons entry rest ih =>
      rw [putEntry]
      by_cases hentry : entry.1 = key
      · subst hentry
        by_cases h : entry.1 = other <;> simp [h]
      · rw [if_neg hentry]
        by_cases hfound : entry.1 = other
        · have hother : key ≠ other := fun h => hentry (hfound.trans h.symm)
          simp [hfound, hother]
        · simpa [hfound] using ih

theorem get_set (m : InsertionMap κ ν) (key other : κ) (value : ν) :
    (m.set key value).get other = if key = other then some value else m.get other :=
  find?_putEntry key other value m.entries

/-- `Map.prototype.delete`. -/
def erase (m : InsertionMap κ ν) (key : κ) : InsertionMap κ ν where
  entries := m.entries.filter fun entry => entry.1 ≠ key
  nodup := m.nodup.sublist (List.filter_sublist.map _)

theorem get_erase (m : InsertionMap κ ν) (key other : κ) :
    (m.erase key).get other = if key = other then none else m.get other := by
  rw [get, erase, List.find?_filter]
  by_cases h : key = other
  · subst h
    simp
  · rw [if_neg h, get]
    congr 2
    funext entry
    by_cases hentry : entry.1 = other
    · simp [hentry, Ne.symm h]
    · simp [hentry]

end InsertionMap

end OpticsAgent.Lib
