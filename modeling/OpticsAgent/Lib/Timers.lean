import Mathlib

/-!
Timers behind variables. A variable holds the id of the timer it was last
assigned; starting, clearing and forgetting are the assignments a program
makes, and a timer that is overwritten while it is live can no longer be
cleared. `Owned` says that this has not happened to a variable's timers.
-/

namespace OpticsAgent.Lib

structure Timer (K : Type*) where
  id : ℕ
  key : K
  delayMs : ℕ
deriving DecidableEq

/-- The variables, indexed by `K`, the live timers and the next id. -/
structure Timers (K : Type*) where
  handles : K → Option ℕ := fun _ => none
  live : List (Timer K) := []
  next : ℕ := 0

namespace Timers

variable {K : Type*} (T : Timers K)

/-- `handle = setTimeout(callback, delay)`, or `setInterval`. -/
def start [DecidableEq K] (k : K) (delayMs : ℕ) : Timers K :=
  { T with
    live := T.live ++ [⟨T.next, k, delayMs⟩]
    handles := Function.update T.handles k (some T.next)
    next := T.next + 1 }

/-- `clearTimeout(handle)`, or `clearInterval`. -/
def clear (k : K) : Timers K :=
  { T with live := T.live.filter fun t => some t.id ≠ T.handles k }

/-- `handle = undefined`. -/
def forget [DecidableEq K] (k : K) : Timers K :=
  { T with handles := Function.update T.handles k none }

/-- A timer that fires once is gone when it does. -/
def expire (id : ℕ) : Timers K :=
  { T with live := T.live.filter fun t => t.id ≠ id }

def Live (k : K) : Prop := ∃ t ∈ T.live, t.key = k

instance [DecidableEq K] (k : K) : Decidable (T.Live k) :=
  inferInstanceAs (Decidable (∃ t ∈ T.live, t.key = k))

/-- Ids are not reused, and a variable names only timers of its own. -/
structure Sound : Prop where
  fresh : ∀ t ∈ T.live, t.id < T.next
  nodup : (T.live.map Timer.id).Nodup
  issued : ∀ k h, T.handles k = some h → h < T.next
  names : ∀ k h, T.handles k = some h → ∀ t ∈ T.live, t.id = h → t.key = k

/-- Every live timer of the variable can still be cleared through it. -/
def Owned (k : K) : Prop := ∀ t ∈ T.live, t.key = k → T.handles k = some t.id

/-- The variable is set only while its timer is live. -/
def Armed (k : K) : Prop := ∀ h, T.handles k = some h → ∃ t ∈ T.live, t.id = h

/-! ## The variables -/

section Handles

variable [DecidableEq K] {T} {k k' : K} {delayMs : ℕ}

theorem handles_start_self : (T.start k delayMs).handles k = some T.next :=
  Function.update_self k _ _

theorem handles_start_of_ne (h : k' ≠ k) : (T.start k delayMs).handles k' = T.handles k' :=
  Function.update_of_ne h _ _

theorem handles_forget_self : (T.forget k).handles k = none :=
  Function.update_self k _ _

theorem handles_forget_of_ne (h : k' ≠ k) : (T.forget k).handles k' = T.handles k' :=
  Function.update_of_ne h _ _

end Handles

/-! ## Which timers are live -/

section Live

variable {T} {k k' : K} {t : Timer K} {delayMs id : ℕ}

theorem mem_live_start [DecidableEq K] :
    t ∈ (T.start k delayMs).live ↔ t ∈ T.live ∨ t = ⟨T.next, k, delayMs⟩ := by
  simp [start]

theorem live_start [DecidableEq K] : (T.start k delayMs).Live k' ↔ T.Live k' ∨ k' = k := by
  constructor
  · rintro ⟨t, ht, rfl⟩
    rcases mem_live_start.mp ht with hold | rfl
    · exact Or.inl ⟨t, hold, rfl⟩
    · exact Or.inr rfl
  · rintro (⟨t, ht, rfl⟩ | rfl)
    · exact ⟨t, mem_live_start.mpr (Or.inl ht), rfl⟩
    · exact ⟨_, mem_live_start.mpr (Or.inr rfl), rfl⟩

theorem mem_live_clear : t ∈ (T.clear k).live ↔ t ∈ T.live ∧ T.handles k ≠ some t.id := by
  rw [clear, List.mem_filter, decide_eq_true_eq, ne_comm]

theorem mem_live_expire : t ∈ (T.expire id).live ↔ t ∈ T.live ∧ t.id ≠ id := by
  simp [expire]

theorem live_of_clear (h : (T.clear k).Live k') : T.Live k' := by
  obtain ⟨t, ht, hkey⟩ := h
  exact ⟨t, (mem_live_clear.mp ht).1, hkey⟩

theorem live_of_expire (h : (T.expire id).Live k') : T.Live k' := by
  obtain ⟨t, ht, hkey⟩ := h
  exact ⟨t, (mem_live_expire.mp ht).1, hkey⟩

/-- A variable that owns its timers clears them all. -/
theorem Owned.not_live_clear (h : T.Owned k) : ¬ (T.clear k).Live k := by
  rintro ⟨t, ht, hkey⟩
  obtain ⟨hlive, hother⟩ := mem_live_clear.mp ht
  exact hother (h t hlive hkey)

theorem Owned.not_live_expire (h : T.Owned t.key) (ht : t ∈ T.live) :
    ¬ (T.expire t.id).Live t.key := by
  rintro ⟨u, hu, hkey⟩
  obtain ⟨hlive, hother⟩ := mem_live_expire.mp hu
  have hsame := (h u hlive hkey).symm.trans (h t ht rfl)
  exact hother (Option.some.inj hsame)

theorem Owned.not_live_of_unset (h : T.Owned k) (hunset : T.handles k = none) : ¬ T.Live k := by
  rintro ⟨t, ht, hkey⟩
  have hset := h t ht hkey
  rw [hunset] at hset
  cases hset

theorem Owned.eq_of_mem (hT : T.Sound) (h : T.Owned k) {u : Timer K} (ht : t ∈ T.live)
    (hu : u ∈ T.live) (htk : t.key = k) (huk : u.key = k) : t = u := by
  have hsame := (h t ht htk).symm.trans (h u hu huk)
  exact List.inj_on_of_nodup_map hT.nodup ht hu (Option.some.inj hsame)

/-- An owned variable has at most one live timer. -/
theorem Owned.length_le_one [DecidableEq K] (hT : T.Sound) (h : T.Owned k) :
    (T.live.filter fun t => t.key = k).length ≤ 1 := by
  have hnodup : (T.live.filter fun t => t.key = k).Nodup := hT.nodup.of_map.filter _
  have hsame : ∀ t ∈ T.live.filter (fun t => t.key = k), ∀ u ∈ T.live.filter (fun t => t.key = k),
      t = u := by
    intro t ht u hu
    rw [List.mem_filter, decide_eq_true_eq] at ht hu
    exact h.eq_of_mem hT ht.1 hu.1 ht.2 hu.2
  cases hlist : T.live.filter fun t => t.key = k with
  | nil => exact Nat.zero_le 1
  | cons t rest =>
      cases rest with
      | nil => exact le_refl 1
      | cons u rest =>
          rw [hlist] at hnodup hsame
          have heq : t = u := hsame t (by simp) u (by simp)
          have hfresh : t ∉ u :: rest := (List.nodup_cons.mp hnodup).1
          rw [heq] at hfresh
          exact absurd List.mem_cons_self hfresh

end Live

/-! ## The ids stay sound -/

section Sound

variable {T} (hT : T.Sound) (k : K) (delayMs id : ℕ)

include hT

theorem Sound.start [DecidableEq K] : (T.start k delayMs).Sound := by
  refine ⟨?_, ?_, ?_, ?_⟩
  · intro t ht
    rcases mem_live_start.mp ht with hold | rfl
    · exact Nat.lt_succ_of_lt (hT.fresh t hold)
    · exact Nat.lt_succ_self _
  · have hnew : T.next ∉ T.live.map Timer.id := by
      rintro hmem
      obtain ⟨t, ht, hid⟩ := List.mem_map.mp hmem
      have hlt := hT.fresh t ht
      omega
    change ((T.live ++ [(⟨T.next, k, delayMs⟩ : Timer K)]).map Timer.id).Nodup
    rw [List.map_append, List.map_cons, List.map_nil, List.nodup_append_comm]
    exact List.nodup_cons.mpr ⟨hnew, hT.nodup⟩
  · intro k' h hh
    rcases eq_or_ne k' k with rfl | hne
    · obtain rfl : T.next = h := Option.some.inj (handles_start_self.symm.trans hh)
      exact Nat.lt_succ_self _
    · exact Nat.lt_succ_of_lt (hT.issued k' h ((handles_start_of_ne hne).symm.trans hh))
  · intro k' h hh t ht hid
    rcases eq_or_ne k' k with rfl | hne
    · obtain rfl : T.next = h := Option.some.inj (handles_start_self.symm.trans hh)
      rcases mem_live_start.mp ht with hold | rfl
      · exact absurd hid (Nat.ne_of_lt (hT.fresh t hold))
      · rfl
    · have hold := (handles_start_of_ne hne).symm.trans hh
      rcases mem_live_start.mp ht with hmem | rfl
      · exact hT.names k' h hold t hmem hid
      · exact absurd hid (Nat.ne_of_gt (hT.issued k' h hold))

theorem Sound.clear : (T.clear k).Sound := by
  refine ⟨?_, ?_, hT.issued, ?_⟩
  · intro t ht
    exact hT.fresh t (mem_live_clear.mp ht).1
  · exact hT.nodup.sublist (List.filter_sublist.map _)
  · intro k' h hh t ht
    exact hT.names k' h hh t (mem_live_clear.mp ht).1

theorem Sound.forget [DecidableEq K] : (T.forget k).Sound := by
  have hhandles (k' : K) (h : ℕ) (hh : (T.forget k).handles k' = some h) :
      T.handles k' = some h := by
    rcases eq_or_ne k' k with rfl | hne
    · rw [handles_forget_self] at hh
      cases hh
    · exact (handles_forget_of_ne hne).symm.trans hh
  refine ⟨hT.fresh, hT.nodup, ?_, ?_⟩
  · intro k' h hh
    exact hT.issued k' h (hhandles k' h hh)
  · intro k' h hh
    exact hT.names k' h (hhandles k' h hh)

theorem Sound.expire : (T.expire id).Sound := by
  refine ⟨?_, ?_, hT.issued, ?_⟩
  · intro t ht
    exact hT.fresh t (mem_live_expire.mp ht).1
  · exact hT.nodup.sublist (List.filter_sublist.map _)
  · intro k' h hh t ht
    exact hT.names k' h hh t (mem_live_expire.mp ht).1

end Sound

/-! ## What a variable owns -/

section Owned

variable {T} {k k' : K} {delayMs id : ℕ}

theorem Owned.start [DecidableEq K] (h : T.Owned k') (hfree : ¬ T.Live k) :
    (T.start k delayMs).Owned k' := by
  intro t ht hkey
  rcases eq_or_ne k' k with rfl | hne
  · rcases mem_live_start.mp ht with hold | rfl
    · exact absurd ⟨t, hold, hkey⟩ hfree
    · exact handles_start_self
  · rcases mem_live_start.mp ht with hold | rfl
    · exact (handles_start_of_ne hne).trans (h t hold hkey)
    · exact absurd hkey.symm hne

theorem Owned.start_of_ne [DecidableEq K] (h : T.Owned k') (hne : k' ≠ k) :
    (T.start k delayMs).Owned k' := by
  intro t ht hkey
  rcases mem_live_start.mp ht with hold | rfl
  · exact (handles_start_of_ne hne).trans (h t hold hkey)
  · exact absurd hkey.symm hne

theorem Owned.clear (h : T.Owned k') : (T.clear k).Owned k' :=
  fun t ht => h t (mem_live_clear.mp ht).1

theorem Owned.expire (h : T.Owned k') : (T.expire id).Owned k' :=
  fun t ht => h t (mem_live_expire.mp ht).1

theorem Owned.forget [DecidableEq K] (h : T.Owned k') (hdead : ¬ T.Live k) :
    (T.forget k).Owned k' := by
  intro t ht hkey
  rcases eq_or_ne k' k with rfl | hne
  · exact absurd ⟨t, ht, hkey⟩ hdead
  · exact (handles_forget_of_ne hne).trans (h t ht hkey)

theorem Owned.forget_of_ne [DecidableEq K] (h : T.Owned k') (hne : k' ≠ k) :
    (T.forget k).Owned k' :=
  fun t ht hkey => (handles_forget_of_ne hne).trans (h t ht hkey)

end Owned

/-! ## A variable that is set has its timer -/

section Armed

variable {T} {k k' : K} {delayMs id : ℕ}

theorem Armed.live (h : T.Armed k) (hT : T.Sound) (hset : (T.handles k).isSome) : T.Live k := by
  obtain ⟨id, hid⟩ := Option.isSome_iff_exists.mp hset
  obtain ⟨t, ht, htid⟩ := h id hid
  exact ⟨t, ht, hT.names k id hid t ht htid⟩

theorem Armed.start [DecidableEq K] (h : T.Armed k') : (T.start k delayMs).Armed k' := by
  intro id hid
  rcases eq_or_ne k' k with rfl | hne
  · exact ⟨_, mem_live_start.mpr (Or.inr rfl),
      Option.some.inj (handles_start_self.symm.trans hid)⟩
  · obtain ⟨t, ht, htid⟩ := h id ((handles_start_of_ne hne).symm.trans hid)
    exact ⟨t, mem_live_start.mpr (Or.inl ht), htid⟩

theorem Armed.clear_of_ne (h : T.Armed k') (hT : T.Sound) (hne : k' ≠ k) :
    (T.clear k).Armed k' := by
  intro id hid
  obtain ⟨t, ht, htid⟩ := h id hid
  refine ⟨t, mem_live_clear.mpr ⟨ht, ?_⟩, htid⟩
  intro hk
  have hkey : t.key = k := hT.names k t.id hk t ht rfl
  have hkey' : t.key = k' := hT.names k' id hid t ht htid
  exact hne (hkey'.symm.trans hkey)

theorem Armed.forget [DecidableEq K] (h : T.Armed k') : (T.forget k).Armed k' := by
  intro id hid
  rcases eq_or_ne k' k with rfl | hne
  · rw [handles_forget_self] at hid
    cases hid
  · exact h id ((handles_forget_of_ne hne).symm.trans hid)

theorem armed_forget_self [DecidableEq K] : (T.forget k).Armed k := by
  intro id hid
  rw [handles_forget_self] at hid
  cases hid

theorem Armed.expire_of_ne (h : T.Armed k') (hT : T.Sound) {t : Timer K} (ht : t ∈ T.live)
    (hne : t.key ≠ k') : (T.expire t.id).Armed k' := by
  intro id hid
  obtain ⟨u, hu, huid⟩ := h id hid
  refine ⟨u, mem_live_expire.mpr ⟨hu, ?_⟩, huid⟩
  intro hsame
  exact hne (hT.names k' id hid t ht (hsame.symm.trans huid))

end Armed

end Timers

end OpticsAgent.Lib
