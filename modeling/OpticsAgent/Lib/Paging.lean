import Mathlib

/-!
Paging back through a numbered record. Each query answers with a span of
positions and moves on to the next query, until a span shows nothing. Where no
query answers from further forward than the one before it, every position is
shown once exactly when at each query the positions in front of the end of its
span are those that are still to come.
-/

namespace OpticsAgent.Lib

/-- Queries `Q`, the positions each answers with and the query after it. -/
structure Pager (Q : Type*) where
  first : Q → ℕ
  last : Q → ℕ
  fails : Q → Prop
  next : Q → Q
  /-- The positions that have something to show. -/
  shown : ℕ → Prop
  ordered : ∀ q, first q ≤ last q
  back : ∀ q, last (next q) ≤ last q

namespace Pager

variable {Q : Type*} (P : Pager Q)

def covers (i : ℕ) (q : Q) : Bool := P.first q ≤ i && i < P.last q

def ShowsNothing (q : Q) : Prop := ∀ i, P.covers i q = true → ¬ P.shown i

/-- The queries up to the first that shows nothing. -/
inductive Pages : Q → List Q → Prop
  | done {q : Q} : ¬ P.fails q → P.ShowsNothing q → Pages q []
  | more {q : Q} {queries : List Q} : ¬ P.fails q → ¬ P.ShowsNothing q →
      Pages (P.next q) queries → Pages q (q :: queries)

/-- The paging ends, and shows each position below `older` once and no other. -/
def ShowsOnce (older : ℕ) (q : Q) : Prop :=
  ∃ queries, P.Pages q queries ∧ ∀ i, P.shown i →
    queries.countP (P.covers i) = if i < older then 1 else 0

/-- At every query the positions still to come are those up to the end of its
span. -/
inductive Seamless : ℕ → Q → Prop
  | done {older : ℕ} {q : Q} : ¬ P.fails q → P.ShowsNothing q →
      (∀ i, P.shown i → older ≤ i) → Seamless older q
  | more {older : ℕ} {q : Q} : ¬ P.fails q → ¬ P.ShowsNothing q →
      (∀ i, P.shown i → (i < older ↔ i < P.last q)) → Seamless (P.first q) (P.next q) →
      Seamless older q

/-- The queries on the way, each with the position its span is to end at. -/
inductive Reached (older : ℕ) (q : Q) : ℕ → Q → Prop
  | here : Reached older q older q
  | next {p : ℕ} {r : Q} : Reached older q p r → ¬ P.ShowsNothing r →
      Reached older q (P.first r) (P.next r)

/-- The span of the query ends where it is to end, or nothing is left to show. -/
structure Joins (p : ℕ) (r : Q) : Prop where
  answers : ¬ P.fails r
  ends : P.ShowsNothing r → ∀ i, P.shown i → p ≤ i
  same : ¬ P.ShowsNothing r → ∀ i, P.shown i → (i < p ↔ i < P.last r)

variable {P}

theorem covers_iff {i : ℕ} {q : Q} : P.covers i q = true ↔ P.first q ≤ i ∧ i < P.last q := by
  simp [covers]

theorem Pages.count_of_last_le {q : Q} {queries : List Q} (h : P.Pages q queries) {i : ℕ}
    (hi : P.last q ≤ i) : queries.countP (P.covers i) = 0 := by
  induction h with
  | done => rfl
  | more hfails hshows hpages ih =>
      rw [List.countP_cons_of_neg]
      · exact ih ((P.back _).trans hi)
      · exact fun hin => absurd (covers_iff.mp hin).2 (not_lt.mpr hi)

theorem Seamless.showsOnce {older : ℕ} {q : Q} (h : P.Seamless older q) :
    P.ShowsOnce older q := by
  induction h with
  | done hfails hshows hold =>
      refine ⟨[], Pages.done hfails hshows, fun i hi => ?_⟩
      rw [if_neg (not_lt.mpr (hold i hi)), List.countP_nil]
  | @more older q hfails hshows hsame hrest ih =>
      obtain ⟨queries, hpages, hcount⟩ := ih
      refine ⟨q :: queries, Pages.more hfails hshows hpages, fun i hi => ?_⟩
      have hordered := P.ordered q
      have hiff := hsame i hi
      rw [List.countP_cons, hcount i hi]
      simp only [covers_iff]
      split_ifs <;> omega

theorem Pages.seamless {older : ℕ} {q : Q} {queries : List Q} (h : P.Pages q queries)
    (hcount : ∀ i, P.shown i →
      queries.countP (P.covers i) = if i < older then 1 else 0) :
    P.Seamless older q := by
  induction h generalizing older with
  | done hfails hshows =>
      refine Seamless.done hfails hshows fun i hi => ?_
      have hzero := hcount i hi
      rw [List.countP_nil] at hzero
      split_ifs at hzero with hlt
      exact not_lt.mp hlt
  | @more q queries hfails hshows hpages ih =>
      obtain ⟨j, hj, hshown⟩ : ∃ j, P.covers j q = true ∧ P.shown j := by
        simpa [ShowsNothing] using hshows
      have hj := covers_iff.mp hj
      have hordered := P.ordered q
      have hsplit : ∀ i, P.shown i → queries.countP (P.covers i) +
          (if P.first q ≤ i ∧ i < P.last q then 1 else 0) = if i < older then 1 else 0 := by
        intro i hi
        rw [← hcount i hi, List.countP_cons]
        simp only [covers_iff]
      have hbeyond : ∀ i, P.last q ≤ i → queries.countP (P.covers i) = 0 :=
        fun i hi => hpages.count_of_last_le ((P.back q).trans hi)
      have hjolder : j < older := by
        have hone := hsplit j hshown
        rw [if_pos hj] at hone
        by_contra hge
        rw [if_neg hge] at hone
        omega
      -- a position in the span is covered once already, one behind it never again
      have hsame : ∀ i, P.shown i → (i < older ↔ i < P.last q) := by
        intro i hi
        have hsum := hsplit i hi
        constructor
        · intro hlt
          by_contra hge
          rw [hbeyond i (not_lt.mp hge), if_neg (fun hin => hge hin.2), if_pos hlt] at hsum
          omega
        · intro hlt
          by_cases hfirst : P.first q ≤ i
          · by_contra hge
            rw [if_pos ⟨hfirst, hlt⟩, if_neg hge] at hsum
            omega
          · omega
      refine Seamless.more hfails hshows hsame (ih fun i hi => ?_)
      have hsum := hsplit i hi
      have hiff := hsame i hi
      split_ifs at hsum ⊢ <;> omega

theorem showsOnce_iff {older : ℕ} {q : Q} : P.ShowsOnce older q ↔ P.Seamless older q := by
  constructor
  · rintro ⟨queries, hpages, hcount⟩
    exact hpages.seamless hcount
  · exact Seamless.showsOnce

theorem Reached.next_of {older p : ℕ} {q r : Q} (hshows : ¬ P.ShowsNothing q)
    (h : P.Reached (P.first q) (P.next q) p r) : P.Reached older q p r := by
  induction h with
  | here => exact .next .here hshows
  | next hreached hmore ih => exact .next ih hmore

theorem Seamless.joins {older p : ℕ} {q r : Q} (h : P.Seamless older q)
    (hreached : P.Reached older q p r) : P.Seamless p r := by
  induction hreached with
  | here => exact h
  | next hreached hmore ih =>
      cases ih with
      | done hfails hshows hold => exact absurd hshows hmore
      | more hfails hshows hsame hrest => exact hrest

/-- A span that shows something lies in front of the one before it, so that spans
which join come to an end. -/
theorem seamless_of_joins {older : ℕ} {q : Q}
    (h : ∀ {p r}, P.Reached older q p r → P.Joins p r) : P.Seamless older q := by
  induction hlast : P.last q using Nat.strong_induction_on generalizing older q with
  | _ last ih =>
      have hjoins := h .here
      by_cases hshows : P.ShowsNothing q
      · exact .done hjoins.answers hshows (hjoins.ends hshows)
      refine .more hjoins.answers hshows (hjoins.same hshows) ?_
      have hnext := h (.next .here hshows)
      by_cases hend : P.ShowsNothing (P.next q)
      · exact .done hnext.answers hend (hnext.ends hend)
      obtain ⟨j, hj, hshown⟩ : ∃ j, P.covers j q = true ∧ P.shown j := by
        simpa [ShowsNothing] using hshows
      obtain ⟨hfirst, hjlast⟩ := covers_iff.mp hj
      have hback : P.last (P.next q) ≤ j := by
        by_contra hlt
        exact absurd ((hnext.same hend j hshown).mpr (not_le.mp hlt)) (not_lt.mpr hfirst)
      exact ih _ (by omega) (fun hreached => h (hreached.next_of hshows)) rfl

theorem seamless_iff {older : ℕ} {q : Q} :
    P.Seamless older q ↔ ∀ p r, P.Reached older q p r → P.Joins p r := by
  refine ⟨fun h p r hreached => ?_, fun h => seamless_of_joins fun hreached => h _ _ hreached⟩
  cases h.joins hreached with
  | done hfails hshows hold => exact ⟨hfails, fun _ => hold, fun hmore => absurd hshows hmore⟩
  | more hfails hshows hsame hrest =>
      exact ⟨hfails, fun hnone => absurd hnone hshows, fun _ => hsame⟩

end Pager

end OpticsAgent.Lib
