import Mathlib

/-!
Machines whose steps may be impossible: `step` gives `none` for an event that
cannot happen in a state. Runs are lists of events. An invariant of the steps
is an invariant of the runs, also when the steps need a condition that holds
along the run.
-/

namespace OpticsAgent.Lib

variable {S E : Type*}

structure Machine (S E : Type*) where
  step : S → E → Option S

namespace Machine

variable (M : Machine S E)

def run : S → List E → Option S
  | s, [] => some s
  | s, e :: rest => (M.step s e).bind fun s' => run s' rest

/-- Every step of the run is taken from a state in which it meets `ok`. -/
def Along (ok : S → E → Prop) : S → List E → Prop
  | _, [] => True
  | s, e :: rest => ok s e ∧ ∀ s', M.step s e = some s' → Along ok s' rest

instance decidableAlong (ok : S → E → Prop) [∀ s e, Decidable (ok s e)] :
    ∀ (s : S) (events : List E), Decidable (M.Along ok s events)
  | _, [] => isTrue trivial
  | s, e :: rest =>
      match h : M.step s e with
      | none => decidable_of_iff (ok s e) (by simp [Along, h])
      | some s' =>
          let tail := decidableAlong ok s' rest
          decidable_of_iff (ok s e ∧ M.Along ok s' rest) (by simp [Along, h])

variable {M}

theorem run_cons {s s' : S} {e : E} {rest : List E} (h : M.run s (e :: rest) = some s') :
    ∃ t, M.step s e = some t ∧ M.run t rest = some s' := by
  exact Option.bind_eq_some_iff.mp h

theorem run_append (s : S) (xs ys : List E) :
    M.run s (xs ++ ys) = (M.run s xs).bind fun t => M.run t ys := by
  induction xs generalizing s with
  | nil => rfl
  | cons e rest ih =>
      rw [List.cons_append, run, run, Option.bind_assoc]
      congr 1
      funext t
      exact ih t

theorem run_invariant {Inv : S → Prop}
    (hstep : ∀ s e s', Inv s → M.step s e = some s' → Inv s') {s s' : S} {events : List E}
    (hs : Inv s) (hrun : M.run s events = some s') : Inv s' := by
  induction events generalizing s with
  | nil =>
      obtain rfl := Option.some.inj hrun
      exact hs
  | cons e rest ih =>
      obtain ⟨t, ht, hrest⟩ := run_cons hrun
      exact ih (hstep s e t hs ht) hrest

theorem Along.run_invariant {ok : S → E → Prop} {Inv : S → Prop}
    (hstep : ∀ s e s', Inv s → ok s e → M.step s e = some s' → Inv s') {s s' : S}
    {events : List E} (hok : M.Along ok s events) (hs : Inv s)
    (hrun : M.run s events = some s') : Inv s' := by
  induction events generalizing s with
  | nil =>
      obtain rfl := Option.some.inj hrun
      exact hs
  | cons e rest ih =>
      obtain ⟨t, ht, hrest⟩ := run_cons hrun
      exact ih (hok.2 t ht) (hstep s e t hs hok.1 ht) hrest

/-- A condition on the events alone. -/
theorem along_of_forall {ok : E → Prop} {events : List E} (h : ∀ e ∈ events, ok e) (s : S) :
    M.Along (fun _ e => ok e) s events := by
  induction events generalizing s with
  | nil => trivial
  | cons e rest ih =>
      obtain ⟨he, hrest⟩ := List.forall_mem_cons.mp h
      exact ⟨he, fun s' _ => ih hrest s'⟩

/-- Under an invariant, a condition that gives another gives it along a run. -/
theorem Along.imp {ok ok' : S → E → Prop} {Inv : S → Prop}
    (hstep : ∀ s e s', Inv s → M.step s e = some s' → Inv s')
    (h : ∀ s e, Inv s → ok s e → ok' s e) {s : S} (hs : Inv s) {events : List E}
    (hok : M.Along ok s events) : M.Along ok' s events := by
  induction events generalizing s with
  | nil => trivial
  | cons e rest ih =>
      exact ⟨h s e hs hok.1, fun s' hs' => ih (hstep s e s' hs hs') (hok.2 s' hs')⟩

/-- Conditions that come to the same under an invariant are the same along a
run, also when only steps that meet them keep the invariant. -/
theorem along_congr {ok ok' : S → E → Prop} {Inv : S → Prop}
    (hstep : ∀ s e s', Inv s → ok s e → M.step s e = some s' → Inv s')
    (h : ∀ s e, Inv s → (ok s e ↔ ok' s e)) {s : S} (hs : Inv s) (events : List E) :
    M.Along ok s events ↔ M.Along ok' s events := by
  induction events generalizing s with
  | nil => exact Iff.rfl
  | cons e rest ih =>
      have hhead := h s e hs
      constructor
      · rintro ⟨hok, htail⟩
        exact ⟨hhead.mp hok, fun s' hs' => (ih (hstep s e s' hs hok hs')).mp (htail s' hs')⟩
      · rintro ⟨hok', htail⟩
        have hok := hhead.mpr hok'
        exact ⟨hok, fun s' hs' => (ih (hstep s e s' hs hok hs')).mpr (htail s' hs')⟩

/-- A run that leaves the condition leaves it at a first step. -/
theorem exists_of_not_along {ok : S → E → Prop} {s s' : S} {events : List E}
    (hrun : M.run s events = some s') (h : ¬ M.Along ok s events) :
    ∃ before e later t t', events = before ++ e :: later ∧ M.run s before = some t ∧
      M.Along ok s before ∧ ¬ ok t e ∧ M.step t e = some t' ∧ M.run t' later = some s' := by
  induction events generalizing s with
  | nil => exact absurd trivial h
  | cons e rest ih =>
      obtain ⟨t, ht, hrest⟩ := run_cons hrun
      by_cases hok : ok s e
      · have htail : ¬ M.Along ok t rest := by
          intro hall
          refine h ⟨hok, fun s' hs' => ?_⟩
          rw [ht] at hs'
          obtain rfl := Option.some.inj hs'
          exact hall
        obtain ⟨before, e', later, u, u', rfl, hbefore, halong, hbad, hstep, hlater⟩ :=
          ih hrest htail
        refine ⟨e :: before, e', later, u, u', rfl, ?_, ⟨hok, fun s' hs' => ?_⟩, hbad, hstep,
          hlater⟩
        · rw [run, ht]
          exact hbefore
        · rw [ht] at hs'
          obtain rfl := Option.some.inj hs'
          exact halong
      · exact ⟨[], e, rest, s, t, rfl, rfl, trivial, hok, ht, hrest⟩

end Machine

end OpticsAgent.Lib
