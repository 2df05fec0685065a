import Mathlib
import OpticsAgent.Tunnel.PoolSuspension

/-!
Retry rounds. A refill timer is armed in one place, when the close of a failed
connection finds the pool running and no refill timer live; the counter goes up
there and nowhere else, and goes back to zero only when the pool is at its
target or the agent registers again. So the timers armed between two resets
have the delays of the ramp, from its beginning.
-/

namespace OpticsAgent.Tunnel

open OpticsAgent.Ecma OpticsAgent.Node OpticsAgent.Utility OpticsAgent.Lib

/-! ## The ramp -/

theorem State.backoffMs_mono {k l : ℕ} (h : k ≤ l) : backoffMs k ≤ backoffMs l := by
  have hpower : 2 ^ (k - 1) ≤ 2 ^ (l - 1) :=
    Nat.pow_le_pow_right (by decide) (Nat.sub_le_sub_right h 1)
  apply min_le_min_right
  exact Nat.mul_le_mul_left 500 hpower

/-- The delays of the first `n` timers of an outage. -/
def ramp (n : ℕ) : List ℕ := (List.range n).map fun k => min (500 * 2 ^ k) 30000

theorem ramp_succ (n : ℕ) : ramp (n + 1) = ramp n ++ [State.backoffMs (n + 1)] := by
  rw [ramp, List.range_succ, List.map_append]
  rfl

theorem pairwise_ramp (n : ℕ) : (ramp n).Pairwise (· ≤ ·) := by
  apply List.Pairwise.map _ _ List.pairwise_lt_range
  intro k l hlt
  exact State.backoffMs_mono (Nat.succ_le_succ hlt.le)

namespace State

/-- The refill timers that are live after a step and were not before it. -/
def armed (s s' : State) : List (Timer Callback) :=
  s'.timers.live.filter fun t => t.key = .refill ∧ t ∉ s.timers.live

/-- The delays, without the jitter, of the refill timers a run arms. -/
def armedDelays (s : State) : List Event → List ℕ
  | [] => []
  | event :: rest =>
      match service.step s event with
      | none => []
      | some s' => (s.armed s').map Timer.delayMs ++ s'.armedDelays rest

/-- The close of a connection that was never acknowledged, or of a pooled one
with evidence that it broke. -/
def Fails (s : State) : Event → Prop
  | .close c => (s.connections c).settled = false ∨
      c ∈ s.pool ∧ (s.connections c).unhealthy = true
  | _ => False

/-- A failure that finds the pool running and no refill scheduled. -/
def Arms (s : State) (event : Event) : Prop :=
  s.Fails event ∧ s.suspended = false ∧ ¬ s.timers.Live .refill

/-- A `PRE:OK` that leaves the pool at its target. -/
def Recovers (frame : Frame) (t : State) : Prop :=
  frame.verb = js "PRE:OK" ∧ targetPoolCount ≤ t.pool.card

/-- A registration that passes its checks, or a chunk with which the pool is
back at its target. -/
def Resets (s : State) (event : Event) : Prop :=
  event.Resumes ∨ ∃ frame t, s.Handles frame t event ∧ Recovers frame t

/-! ## What arms nothing -/

/-- Every live refill timer is among `old`, and the counter is `n`. -/
structure Unarmed (old : List (Timer Callback)) (n : ℕ) (s : State) : Prop where
  timers : ∀ t ∈ s.timers.live, t.key = .refill → t ∈ old
  failures : s.consecutiveFailures = n

variable {old : List (Timer Callback)} {n : ℕ} {s : State}

theorem unarmed_self (s : State) : s.Unarmed s.timers.live s.consecutiveFailures :=
  ⟨fun _ ht _ => ht, rfl⟩

theorem Unarmed.armed_eq {s' : State} (h : s'.Unarmed s.timers.live n) : s.armed s' = [] := by
  apply List.filter_eq_nil_iff.mpr
  intro t ht hnew
  obtain ⟨hkey, hfresh⟩ := of_decide_eq_true hnew
  exact hfresh (h.timers t ht hkey)

namespace Unarmed

theorem of_timers {s' : State} (hs : s.Unarmed old n)
    (hfailures : s'.consecutiveFailures = s.consecutiveFailures)
    (htimers : s'.timers = s.timers) : s'.Unarmed old n :=
  ⟨htimers ▸ hs.timers, hfailures.trans hs.failures⟩

theorem startTimer (hs : s.Unarmed old n) {callback : Callback} (hother : callback ≠ .refill)
    (delayMs : ℕ) : (s.startTimer callback delayMs).Unarmed old n := by
  refine ⟨?_, hs.failures⟩
  intro t ht hkey
  rcases Timers.mem_live_start.mp ht with hold | rfl
  · exact hs.timers t hold hkey
  · exact absurd hkey hother

theorem clearTimer (hs : s.Unarmed old n) (callback : Callback) :
    (s.clearTimer callback).Unarmed old n :=
  ⟨fun t ht => hs.timers t (Timers.mem_live_clear.mp ht).1, hs.failures⟩

theorem forgetTimer (hs : s.Unarmed old n) (callback : Callback) :
    (s.forgetTimer callback).Unarmed old n :=
  ⟨hs.timers, hs.failures⟩

theorem expire (hs : s.Unarmed old n) (id : ℕ) : (s.expire id).Unarmed old n :=
  ⟨fun t ht => hs.timers t (Timers.mem_live_expire.mp ht).1, hs.failures⟩

theorem settle (hs : s.Unarmed old n) (c : ℕ) : (s.settle c).Unarmed old n := by
  unfold State.settle
  split_ifs
  · exact hs
  · exact hs.of_timers rfl rfl

theorem stopHeartbeat (hs : s.Unarmed old n) (c : ℕ) : (s.stopHeartbeat c).Unarmed old n := by
  have hcleared := (hs.clearTimer (.heartbeat c)).clearTimer (.pongDeadline c)
  exact (hcleared.forgetTimer (.heartbeat c)).forgetTimer (.pongDeadline c)

theorem cancelRefill (hs : s.Unarmed old n) : s.cancelRefill.Unarmed old n :=
  (hs.clearTimer .refill).forgetTimer .refill

theorem formPreconnectPool (hs : s.Unarmed old n) : s.formPreconnectPool.Unarmed old n := by
  apply formPreconnectPool_induction (P := Unarmed old n) _ hs
  intro t ht _
  have hnew : t.netConnect.Unarmed old n := ht.of_timers rfl rfl
  exact hnew.startTimer (by simp) connectTimeoutMs

/-! ## Frames -/

/-- The counter goes back if and only if the pool is at its target. -/
theorem onPreOk (hs : s.Unarmed old n) (c : ℕ) :
    (targetPoolCount ≤ (s.onPreOk c).pool.card ∧ (s.onPreOk c).Unarmed old 0) ∨
      ((s.onPreOk c).pool.card < targetPoolCount ∧ (s.onPreOk c).Unarmed old n) := by
  have hsettled := (hs.clearTimer (.ackDeadline c)).settle c
  have hpooled : Unarmed old n { (s.clearTimer (.ackDeadline c)).settle c with
      pool := insert c ((s.clearTimer (.ackDeadline c)).settle c).pool } :=
    hsettled.of_timers rfl rfl
  have hother : Callback.heartbeat c ≠ .refill := by simp
  have hformed := (hpooled.startTimer hother heartbeatIntervalMs).formPreconnectPool
  unfold State.onPreOk
  dsimp only
  split_ifs with hfull
  · exact Or.inl ⟨hfull, hformed.timers, rfl⟩
  · exact Or.inr ⟨not_le.mp hfull, hformed⟩

theorem onPreErr (hs : s.Unarmed old n) (c : ℕ) (args : List JsString) :
    (s.onPreErr c args).Unarmed old n := by
  have hcleared := hs.clearTimer (.ackDeadline c)
  unfold State.onPreErr
  dsimp only
  split_ifs
  · have hsuspended : Unarmed old n { s.clearTimer (.ackDeadline c) with suspended := true } :=
      hcleared.of_timers rfl rfl
    exact (hsuspended.cancelRefill.settle c).of_timers rfl rfl
  · exact (hcleared.settle c).of_timers rfl rfl

theorem onOpen (hs : s.Unarmed old n) (c : ℕ) (args : List JsString) (rest : List Byte) :
    (s.onOpen c args rest).Unarmed old n := by
  have hdetached : (s.updateConnection c fun k => { k with detached := true }).Unarmed old n :=
    hs.of_timers rfl rfl
  have hconsumed : Unarmed old n { (s.updateConnection c fun k =>
      { k with detached := true }).stopHeartbeat c with pool := s.pool.erase c } :=
    (hdetached.stopHeartbeat c).of_timers rfl rfl
  unfold State.onOpen pipeToLocalService
  dsimp only
  split
  · exact hconsumed.formPreconnectPool.of_timers rfl rfl
  · exact hconsumed.formPreconnectPool.of_timers rfl rfl

theorem onFrame (hs : s.Unarmed old n) (c : ℕ) (frame : Frame) (rest : List Byte) :
    (Recovers frame (State.onFrame c frame rest s).1 ∧
        (State.onFrame c frame rest s).1.Unarmed old 0) ∨
      (¬ Recovers frame (State.onFrame c frame rest s).1 ∧
        (State.onFrame c frame rest s).1.Unarmed old n) := by
  unfold Recovers
  unfold State.onFrame
  split_ifs with hpreOk
  · rcases hs.onPreOk c with ⟨hfull, hback⟩ | ⟨hbelow, hkept⟩
    · exact Or.inl ⟨⟨hpreOk, hfull⟩, hback⟩
    · exact Or.inr ⟨fun h => absurd h.2 (not_le.mpr hbelow), hkept⟩
  · exact Or.inr ⟨fun h => hpreOk h.1, hs.onPreErr c frame.args⟩
  · exact Or.inr ⟨fun h => hpreOk h.1, (hs.clearTimer _).forgetTimer _⟩
  · exact Or.inr ⟨fun h => hpreOk h.1, hs.onOpen c frame.args rest⟩
  · exact Or.inr ⟨fun h => hpreOk h.1, hs⟩

/-! ## Callbacks -/

/-- A chunk with such a `PRE:OK` sets the counter back, and no other does. -/
theorem onSocketData (hs : s.Unarmed old n) (c : ℕ) (chunk : List Byte) :
    (s.Resets (.data c chunk) ∧ (s.onSocketData c chunk).Unarmed old 0) ∨
      (¬ s.Resets (.data c chunk) ∧ (s.onSocketData c chunk).Unarmed old n) := by
  by_cases hreset : s.Resets (.data c chunk)
  · obtain hresumes | ⟨frame, t, hhandled, hrecovers⟩ := id hreset
    · exact hresumes.elim
    · left
      refine ⟨hreset, ?_⟩
      have hstays (frame : Frame) (rest : List Byte) (u : State)
          (hu : ∃ m, u.Unarmed old m) : ∃ m, (State.onFrame c frame rest u).1.Unarmed old m := by
        obtain ⟨m, hu⟩ := hu
        rcases hu.onFrame c frame rest with ⟨-, h⟩ | ⟨-, h⟩
        · exact ⟨_, h⟩
        · exact ⟨_, h⟩
      obtain ⟨u, rest, ⟨m, hu⟩, rfl⟩ := HandedOver.before hstays hhandled ⟨n, hs⟩
      have hback : (State.onFrame c frame rest u).1.Unarmed old 0 := by
        rcases hu.onFrame c frame rest with ⟨-, h⟩ | ⟨hnot, -⟩
        · exact h
        · exact absurd hrecovers hnot
      have hzero (frame : Frame) (rest : List Byte) (u : State) (hu : u.Unarmed old 0) :
          (State.onFrame c frame rest u).1.Unarmed old 0 := by
        rcases hu.onFrame c frame rest with ⟨-, h⟩ | ⟨-, h⟩
        · exact h
        · exact h
      exact (HandedOver.after hzero hhandled hback).of_timers rfl rfl
  · right
    refine ⟨hreset, ?_⟩
    have hkept (frame : Frame) (rest : List Byte) (u : State) (hu : u.Unarmed old n) :
        Recovers frame (State.onFrame c frame rest u).1 ∨
          (State.onFrame c frame rest u).1.Unarmed old n := by
      rcases hu.onFrame c frame rest with ⟨h, -⟩ | ⟨-, h⟩
      · exact Or.inl h
      · exact Or.inr h
    rcases handedOver_or_drain hkept hs with ⟨frame, t, hhandled, hrecovers⟩ | hend
    · exact absurd (Or.inr ⟨frame, t, hhandled, hrecovers⟩) hreset
    · exact Unarmed.of_timers hend rfl rfl

theorem onConnect (hs : s.Unarmed old n) (c : ℕ) (secret : Option JsString)
    (timestamp : Number) (nonce : JsString) :
    (s.onConnect c secret timestamp nonce).Unarmed old n := by
  have hcleared := (hs.clearTimer (.connectDeadline c)).forgetTimer (.connectDeadline c)
  unfold State.onConnect
  cases secret with
  | none => exact hcleared.of_timers rfl rfl
  | some key =>
      apply Unarmed.startTimer _ (by simp)
      exact hcleared.of_timers rfl rfl

/-- A registration that passes its checks sets the counter back. -/
theorem initPreconnectPool (hs : s.Unarmed old n) (agentUuid secret : Option JsString) :
    (s.Resets (.init agentUuid secret) ∧
        (s.initPreconnectPool agentUuid secret).Unarmed old 0) ∨
      (¬ s.Resets (.init agentUuid secret) ∧
        (s.initPreconnectPool agentUuid secret).Unarmed old n) := by
  have hresets : s.Resets (.init agentUuid secret) ↔
      ((truthy agentUuid).isSome && secret.isSome) = true := by
    simp [Resets, Handles, Event.Resumes]
  rw [hresets]
  unfold State.initPreconnectPool
  dsimp only
  split_ifs with hready
  · left
    refine ⟨hready, ?_⟩
    apply formPreconnectPool
    apply cancelRefill
    cases truthy agentUuid with
    | none => exact ⟨hs.timers, rfl⟩
    | some uuid => exact ⟨hs.timers, rfl⟩
  · right
    refine ⟨hready, ?_⟩
    cases truthy agentUuid with
    | none => exact hs
    | some uuid => exact hs.of_timers rfl rfl

theorem onTimer (hs : s.Unarmed old n) (callback : Callback) :
    (s.onTimer callback).Unarmed old n := by
  cases callback with
  | connectDeadline c => exact (hs.forgetTimer _).of_timers rfl rfl
  | ackDeadline c => exact hs.of_timers rfl rfl
  | heartbeat c =>
      have hwritten : (s.write c (js "PING\n")).Unarmed old n := hs.of_timers rfl rfl
      unfold State.onTimer
      dsimp only
      split_ifs
      · exact hs
      · exact hwritten.startTimer (by simp) pongTimeoutMs
  | pongDeadline c => exact hs.of_timers rfl rfl
  | refill => exact (hs.forgetTimer .refill).formPreconnectPool

theorem fire (hs : s.Unarmed old n) (t : Timer Callback) : (s.fire t).Unarmed old n := by
  unfold State.fire
  split_ifs
  · exact hs.onTimer t.key
  · exact (hs.expire t.id).onTimer t.key

end Unarmed

/-! ## The close of a connection -/

/-- While the timers are those of `base` but for some that were cleared, a
refill is scheduled if and only if the pool runs and none was, and it has the
next delay of the ramp. -/
theorem RefillKept.scheduleRefill_cases {base : State} (hbase : base.RefillKept)
    (hs : s.Unarmed base.timers.live n) (hsuspended : s.suspended = base.suspended)
    (hhandle : s.timers.handles .refill = base.timers.handles .refill)
    (hnext : s.timers.next = base.timers.next) :
    ((base.suspended = false ∧ ¬ base.timers.Live .refill) ∧
        s.scheduleRefill.consecutiveFailures = n + 1 ∧
        (base.armed s.scheduleRefill).map Timer.delayMs = [backoffMs (n + 1)]) ∨
      (¬ (base.suspended = false ∧ ¬ base.timers.Live .refill) ∧
        s.scheduleRefill.Unarmed base.timers.live n) := by
  unfold State.scheduleRefill
  rw [hsuspended, hhandle]
  split_ifs with hskip
  · right
    refine ⟨?_, hs⟩
    rintro ⟨hopen, hdead⟩
    rw [hopen, Bool.false_or] at hskip
    exact hdead (hbase.armed.live hbase.sound hskip)
  · left
    rw [Bool.or_eq_true, not_or, Bool.not_eq_true, Option.not_isSome_iff_eq_none] at hskip
    refine ⟨⟨hskip.1, hbase.owned.not_live_of_unset hskip.2⟩, ?_⟩
    dsimp only
    rw [hs.failures]
    refine ⟨rfl, ?_⟩
    let timer : Timer Callback := ⟨s.timers.next, .refill, backoffMs (n + 1)⟩
    have hfresh : timer ∉ base.timers.live := by
      intro hold
      have hlt := hbase.sound.fresh _ hold
      exact absurd hlt (not_lt.mpr hnext.ge)
    have hrest : s.timers.live.filter (fun t => t.key = .refill ∧ t ∉ base.timers.live) = [] :=
      hs.armed_eq
    change ((s.timers.live ++ [timer]).filter
      (fun t => t.key = .refill ∧ t ∉ base.timers.live)).map Timer.delayMs = _
    rw [List.filter_append, hrest, List.nil_append,
      List.filter_cons_of_pos (by simp [timer, hfresh])]
    rfl

/-- A failure that finds the pool running and no refill scheduled arms the next
timer of the ramp, and no other close arms any. -/
theorem RefillKept.onClose_cases (hs : s.RefillKept) (c : ℕ) :
    (s.Arms (.close c) ∧ (s.onClose c).consecutiveFailures = s.consecutiveFailures + 1 ∧
        (s.armed (s.onClose c)).map Timer.delayMs = [backoffMs (s.consecutiveFailures + 1)]) ∨
      (¬ s.Arms (.close c) ∧ (s.onClose c).Unarmed s.timers.live s.consecutiveFailures) := by
  let cleared := (((s.updateConnection c fun k => { k with closed := true }).clearTimer
    (.connectDeadline c)).clearTimer (.ackDeadline c)).stopHeartbeat c
  let removed : State := { cleared with pool := s.pool.erase c }
  have hcleared : cleared.Unarmed s.timers.live s.consecutiveFailures := by
    apply Unarmed.stopHeartbeat
    apply Unarmed.clearTimer
    apply Unarmed.clearTimer
    exact s.unarmed_self.of_timers rfl rfl
  have hremoved : removed.Unarmed s.timers.live s.consecutiveFailures :=
    hcleared.of_timers rfl rfl
  have hhandle : removed.timers.handles .refill = s.timers.handles .refill :=
    (Timers.handles_forget_of_ne (by simp)).trans (Timers.handles_forget_of_ne (by simp))
  unfold State.onClose
  dsimp only
  split_ifs with hunsettled hpooled hunhealthy
  · have hfails : s.Fails (.close c) := Or.inl (by simpa using hunsettled)
    have hsuspended : (removed.settle c).suspended = s.suspended := by
      unfold settle
      split_ifs <;> rfl
    have hrefill : (removed.settle c).timers.handles .refill = s.timers.handles .refill := by
      rw [timers_settle]
      exact hhandle
    have hnext : (removed.settle c).timers.next = s.timers.next := by
      rw [timers_settle]
      rfl
    rcases hs.scheduleRefill_cases (hremoved.settle c) hsuspended hrefill hnext with
      ⟨hfree, harmed⟩ | ⟨hbusy, hkept⟩
    · exact Or.inl ⟨⟨hfails, hfree⟩, harmed⟩
    · exact Or.inr ⟨fun h => hbusy h.2, hkept⟩
  · have hfails : s.Fails (.close c) := Or.inr ⟨hpooled, hunhealthy⟩
    rcases hs.scheduleRefill_cases hremoved rfl hhandle rfl with ⟨hfree, harmed⟩ | ⟨hbusy, hkept⟩
    · exact Or.inl ⟨⟨hfails, hfree⟩, harmed⟩
    · exact Or.inr ⟨fun h => hbusy h.2, hkept⟩
  · right
    refine ⟨?_, hremoved.formPreconnectPool⟩
    rintro ⟨hfirst | hbroken, -⟩
    · simp [hfirst] at hunsettled
    · exact hunhealthy hbroken.2
  · right
    refine ⟨?_, hremoved⟩
    rintro ⟨hfirst | hbroken, -⟩
    · simp [hfirst] at hunsettled
    · exact hpooled hbroken.1

/-! ## Steps and runs -/

/-- What a step does to the counter and the refill timers. -/
inductive Round (s : State) (event : Event) (s' : State) : Prop
  | kept (hreset : ¬ s.Resets event) (harms : ¬ s.Arms event)
      (hsame : s'.Unarmed s.timers.live s.consecutiveFailures)
  | back (hreset : s.Resets event) (harms : ¬ s.Arms event) (hzero : s'.Unarmed s.timers.live 0)
  | armed (hreset : ¬ s.Resets event) (harms : s.Arms event)
      (hcount : s'.consecutiveFailures = s.consecutiveFailures + 1)
      (hdelay : (s.armed s').map Timer.delayMs = [backoffMs (s.consecutiveFailures + 1)])

theorem not_resets {event : Event} (hresumes : ¬ event.Resumes)
    (hunhandled : ∀ frame t, ¬ s.Handles frame t event) : ¬ s.Resets event := by
  rintro (h | ⟨frame, t, hhandled, -⟩)
  · exact hresumes h
  · exact hunhandled frame t hhandled

theorem RefillKept.round {s' : State} {event : Event} (hs : s.RefillKept)
    (hstep : step s event = some s') : s.Round event s' := by
  cases transition_of_step hstep with
  | init agentUuid secret =>
      rcases s.unarmed_self.initPreconnectPool agentUuid secret with ⟨hreset, h⟩ | ⟨hkept, h⟩
      · exact .back hreset (fun harms => harms.1) h
      · exact .kept hkept (fun harms => harms.1) h
  | connect c secret timestamp nonce _ _ _ =>
      exact .kept (not_resets id fun _ _ => id) (fun harms => harms.1)
        (s.unarmed_self.onConnect c secret timestamp nonce)
  | data c chunk _ _ _ _ _ =>
      rcases s.unarmed_self.onSocketData c chunk with ⟨hreset, h⟩ | ⟨hkept, h⟩
      · exact .back hreset (fun harms => harms.1) h
      · exact .kept hkept (fun harms => harms.1) h
  | error c =>
      exact .kept (not_resets id fun _ _ => id) (fun harms => harms.1)
        (s.unarmed_self.of_timers rfl rfl)
  | close c _ _ =>
      rcases hs.onClose_cases c with ⟨harms, hcount, hdelay⟩ | ⟨hnot, h⟩
      · exact .armed (not_resets id fun _ _ => id) harms hcount hdelay
      · exact .kept (not_resets id fun _ _ => id) hnot h
  | timer t _ =>
      exact .kept (not_resets id fun _ _ => id) (fun harms => harms.1) (s.unarmed_self.fire t)

/-- Without a reset the delays of a run carry on where the ramp had come. -/
theorem RefillKept.ramp_armedDelays {s' : State} {outage : List Event} (hs : s.RefillKept)
    (hkept : service.Along (fun t event => ¬ t.Resets event) s outage)
    (hrun : service.run s outage = some s') :
    ramp s.consecutiveFailures ++ s.armedDelays outage = ramp s'.consecutiveFailures := by
  induction outage generalizing s with
  | nil =>
      obtain rfl := Option.some.inj hrun
      exact List.append_nil _
  | cons event rest ih =>
      obtain ⟨t, ht, hrest⟩ := Machine.run_cons hrun
      have htail := ih (refillKept_step hs ht) (hkept.2 t ht) hrest
      rw [armedDelays, ht]
      dsimp only
      cases hs.round ht with
      | kept _ _ hsame =>
          rw [hsame.failures] at htail
          rw [hsame.armed_eq]
          exact htail
      | back hreset _ _ => exact absurd hreset hkept.1
      | armed _ _ hcount hdelay =>
          rw [hcount, ramp_succ, List.append_assoc] at htail
          rw [hdelay]
          exact htail

end State

/-- The run has just begun or its last step set the counter back. -/
def AfterReset (events : List Event) : Prop :=
  events = [] ∨ ∃ earlier event t, events = earlier ++ [event] ∧
    service.run start earlier = some t ∧ t.Resets event

theorem AfterReset.failures_eq_zero {s : State} {before : List Event} (h : AfterReset before)
    (hrun : service.run start before = some s) : s.consecutiveFailures = 0 := by
  rcases h with rfl | ⟨earlier, event, t, rfl, hearlier, hreset⟩
  · obtain rfl := Option.some.inj hrun
    rfl
  · rw [Machine.run_append, hearlier] at hrun
    obtain ⟨u, hu, hend⟩ := Machine.run_cons hrun
    obtain rfl := Option.some.inj hend
    cases (State.refillKept_run hearlier).round hu with
    | kept hkept _ _ => exact absurd hreset hkept
    | back _ _ hzero => exact hzero.failures
    | armed hkept _ _ _ => exact absurd hreset hkept

/-- At most one refill timer is ever live. A step arms one exactly when it is a
failure that finds the pool running and no refill timer live; only then the
counter goes up, and only a reset sets it back. Between two resets the delays
are the ramp from its beginning, whatever else succeeds or fails. -/
theorem one_round_per_burst {s : State} {before : List Event}
    (hbefore : service.run start before = some s) :
    (s.timers.live.filter fun t => t.key = .refill).length ≤ 1 ∧
      (∀ event s', service.step s event = some s' →
        (s.Arms event → s'.consecutiveFailures = s.consecutiveFailures + 1 ∧
          (s.armed s').map Timer.delayMs = [State.backoffMs (s.consecutiveFailures + 1)]) ∧
        (¬ s.Arms event → s.armed s' = []) ∧
        (¬ s.Arms event → ¬ s.Resets event → s'.consecutiveFailures = s.consecutiveFailures) ∧
        (s.Resets event → s'.consecutiveFailures = 0)) ∧
      ∀ outage s', AfterReset before → service.run s outage = some s' →
        service.Along (fun t event => ¬ t.Resets event) s outage →
        s.armedDelays outage = ramp s'.consecutiveFailures ∧
          (s.armedDelays outage).Pairwise (· ≤ ·) := by
  have hs := State.refillKept_run hbefore
  refine ⟨hs.owned.length_le_one hs.sound, ?_, ?_⟩
  · intro event s' hstep
    cases hs.round hstep with
    | kept hreset harms hsame =>
        exact ⟨fun h => absurd h harms, fun _ => hsame.armed_eq, fun _ _ => hsame.failures,
          fun h => absurd h hreset⟩
    | back hreset harms hzero =>
        exact ⟨fun h => absurd h harms, fun _ => hzero.armed_eq, fun _ h => absurd hreset h,
          fun _ => hzero.failures⟩
    | armed hreset harms hcount hdelay =>
        exact ⟨fun _ => ⟨hcount, hdelay⟩, fun h => absurd harms h, fun h => absurd harms h,
          fun h => absurd h hreset⟩
  · intro outage s' hfresh hrun hkept
    have hramp := hs.ramp_armedDelays hkept hrun
    rw [hfresh.failures_eq_zero hbefore] at hramp
    have hdelays : s.armedDelays outage = ramp s'.consecutiveFailures := hramp
    refine ⟨hdelays, ?_⟩
    rw [hdelays]
    exact pairwise_ramp _

/-- The first connection closes; the one after it is accepted, and of the nine
that follow three close, two of them in one round. -/
theorem one_round_per_burst_half_up :
    let outage : List Event := [.close 0, .timer 1,
      .connect 1 (some (js "secret")) (Number.ofInt 1756000000000) (js "n1"),
      sends 1 "PRE:OK\n", .close 2, .close 3, .timer 14, .close 4]
    ∃ s s', service.run start [.init (some (js "agent")) (some (js "secret"))] = some s ∧
      service.run s outage = some s' ∧ s.armedDelays outage = [500, 1000, 2000] := by
  intro outage
  let registered := State.initPreconnectPool start (some (js "agent")) (some (js "secret"))
  have hbefore : service.run start [.init (some (js "agent")) (some (js "secret"))] =
      some registered := rfl
  have hreset : AfterReset [.init (some (js "agent")) (some (js "secret"))] :=
    Or.inr ⟨[], _, start, rfl, rfl, Or.inl ⟨rfl, rfl⟩⟩
  have hfailures : (service.run registered outage).map State.consecutiveFailures = some 3 := by
    decide +kernel
  obtain ⟨s', hrun, hcount⟩ := Option.map_eq_some_iff.mp hfailures
  have hcounting : service.Along (fun t event =>
      ((service.step t event).all fun t' => t'.consecutiveFailures ≠ 0) = true ∧
        (service.step t event).isSome = true) registered outage := by decide +kernel
  have hkept : service.Along (fun t event => ¬ t.Resets event) registered outage := by
    apply Machine.Along.imp _ _ (State.refillKept_run hbefore) hcounting
    · intro t event t' ht hstep
      exact State.refillKept_step ht hstep
    · rintro t event ht ⟨hpositive, hpossible⟩ hback
      obtain ⟨t', ht'⟩ := Option.isSome_iff_exists.mp hpossible
      cases ht.round ht' with
      | kept hkept _ _ => exact hkept hback
      | back _ _ hzero => simp [ht', hzero.failures] at hpositive
      | armed hkept _ _ _ => exact hkept hback
  have hramp := ((one_round_per_burst hbefore).2.2 outage s' hreset hrun hkept).1
  refine ⟨registered, s', hbefore, hrun, ?_⟩
  rw [hramp, hcount]
  decide

end OpticsAgent.Tunnel
