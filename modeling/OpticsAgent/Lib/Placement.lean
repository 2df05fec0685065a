import Mathlib

/-!
Items laid end to end, and what some of them give, each result with its place.
Where all results of one layout are results of another, the two give the same
exactly when none of the other's is missing.
-/

namespace OpticsAgent.Lib

variable {α β : Type*}

/-- How items lie: the room one takes, and where in it stands what it gives. -/
structure Layout (α β : Type*) where
  size : α → ℕ
  shift : α → ℕ
  give : α → Option β
  shift_lt : ∀ x y, give x = some y → shift x < size x

namespace Layout

variable (L : Layout α β)

/-- What the items give, with its place behind `start`. -/
def placed : ℕ → List α → List (ℕ × β)
  | _, [] => []
  | start, x :: rest =>
      ((L.give x).map fun y => (start + L.shift x, y)).toList ++ placed (start + L.size x) rest

def room (xs : List α) : ℕ := (xs.map L.size).sum

variable {L}

theorem placed_snd (start : ℕ) (xs : List α) :
    (L.placed start xs).map Prod.snd = xs.filterMap L.give := by
  induction xs generalizing start with
  | nil => rfl
  | cons x rest ih =>
      rw [placed, List.map_append, ih, List.filterMap_cons]
      cases L.give x <;> rfl

theorem mem_placed {start : ℕ} {xs : List α} {e : ℕ × β} :
    e ∈ L.placed start xs ↔ ∃ before x after, xs = before ++ x :: after ∧
      L.give x = some e.2 ∧ e.1 = start + L.room before + L.shift x := by
  induction xs generalizing start with
  | nil => simp [placed]
  | cons x rest ih =>
      rw [placed, List.mem_append, ih]
      constructor
      · rintro (hfirst | ⟨before, y, after, rfl, hgive, hplace⟩)
        · rw [Option.mem_toList, Option.map_eq_some_iff] at hfirst
          obtain ⟨y, hy, rfl⟩ := hfirst
          exact ⟨[], x, rest, rfl, hy, by simp [room]⟩
        · refine ⟨x :: before, y, after, rfl, hgive, ?_⟩
          rw [hplace, room, room, List.map_cons, List.sum_cons]
          omega
      · rintro ⟨before, y, after, hsplit, hgive, hplace⟩
        cases before with
        | nil =>
            obtain ⟨rfl, rfl⟩ := List.cons.inj hsplit
            left
            rw [Option.mem_toList, Option.map_eq_some_iff]
            exact ⟨e.2, hgive, Prod.ext (by simp [hplace, room]) rfl⟩
        | cons x' before =>
            obtain ⟨rfl, rfl⟩ := List.cons.inj hsplit
            refine .inr ⟨before, y, after, rfl, hgive, ?_⟩
            rw [hplace, room, room, List.map_cons, List.sum_cons]
            omega

theorem le_of_mem_placed {start : ℕ} {xs : List α} {e : ℕ × β} (h : e ∈ L.placed start xs) :
    start ≤ e.1 := by
  obtain ⟨before, x, after, -, -, hplace⟩ := mem_placed.mp h
  omega

theorem placed_pairwise (start : ℕ) (xs : List α) :
    (L.placed start xs).Pairwise fun e e' => e.1 < e'.1 := by
  induction xs generalizing start with
  | nil => exact .nil
  | cons x rest ih =>
      rw [placed, List.pairwise_append]
      refine ⟨?_, ih _, fun e he e' he' => ?_⟩
      · cases L.give x <;> simp
      · rw [Option.mem_toList, Option.map_eq_some_iff] at he
        obtain ⟨y, hy, rfl⟩ := he
        have hlt := L.shift_lt x y hy
        have hle := le_of_mem_placed he'
        dsimp only
        omega

end Layout

/-- Results in order of their places, all of them among others in order: what
they are is the same exactly when the others are among them. -/
theorem map_snd_eq_iff {p q : List (ℕ × β)} (hp : p.Pairwise fun e e' => e.1 < e'.1)
    (hq : q.Pairwise fun e e' => e.1 < e'.1) (hsub : ∀ e ∈ p, e ∈ q) :
    p.map Prod.snd = q.map Prod.snd ↔ ∀ e ∈ q, e ∈ p := by
  have hnodup : ∀ {l : List (ℕ × β)}, l.Pairwise (fun e e' => e.1 < e'.1) → l.Nodup := fun h =>
    h.imp fun hlt heq => absurd (congrArg Prod.fst heq) (Nat.ne_of_lt hlt)
  have hsubperm := (hnodup hp).subperm hsub
  constructor
  · intro hsame
    have hlength := congrArg List.length hsame
    rw [List.length_map, List.length_map] at hlength
    exact fun e he => (hsubperm.perm_of_length_le hlength.ge).mem_iff.mpr he
  · intro hback
    have hperm := hsubperm.antisymm ((hnodup hq).subperm hback)
    rw [List.Perm.eq_of_pairwise (fun e e' _ _ hlt hgt => absurd hlt hgt.not_gt) hp hq hperm]

end OpticsAgent.Lib
