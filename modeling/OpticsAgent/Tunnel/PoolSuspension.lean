import Mathlib
import OpticsAgent.Tunnel.PoolRefill

/-!
A rejection that no retry can fix suspends the pool. Whatever the connections
that are left still do, no connection is started and no refill is scheduled
until the agent registers again: every path to a new connection goes through
`formPreconnectPool`, and the only refill timer there can be was cleared.
-/

namespace OpticsAgent.Tunnel

open OpticsAgent.Ecma OpticsAgent.Node OpticsAgent.Utility OpticsAgent.Lib

/-- A registration that passes the checks of `initPreconnectPool`. -/
def Event.Resumes : Event → Prop
  | .init agentUuid secret => (truthy agentUuid).isSome ∧ secret.isSome
  | _ => False

namespace State

/-- Suspended, with `n` connections created so far and no refill timer live. -/
structure Halted (n : ℕ) (s : State) : Prop where
  suspended : s.suspended = true
  created : s.created = n
  dormant : ¬ s.timers.Live .refill

variable {n : ℕ} {s : State}

theorem formPreconnectPool_of_suspended (h : s.suspended = true) : s.formPreconnectPool = s := by
  rw [formPreconnectPool, if_pos h]

theorem scheduleRefill_of_suspended (h : s.suspended = true) : s.scheduleRefill = s := by
  rw [scheduleRefill, h, Bool.true_or, if_pos rfl]

namespace Halted

theorem formPreconnectPool (hs : s.Halted n) : s.formPreconnectPool.Halted n := by
  rw [formPreconnectPool_of_suspended hs.suspended]
  exact hs

theorem scheduleRefill (hs : s.Halted n) : s.scheduleRefill.Halted n := by
  rw [scheduleRefill_of_suspended hs.suspended]
  exact hs

theorem of_timers {s' : State} (hs : s.Halted n) (hsuspended : s'.suspended = s.suspended)
    (hcreated : s'.created = s.created) (htimers : s'.timers = s.timers) : s'.Halted n :=
  ⟨hsuspended.trans hs.suspended, hcreated.trans hs.created, htimers ▸ hs.dormant⟩

theorem startTimer (hs : s.Halted n) {callback : Callback} (hother : callback ≠ .refill)
    (delayMs : ℕ) : (s.startTimer callback delayMs).Halted n := by
  refine ⟨hs.suspended, hs.created, fun hlive => ?_⟩
  rcases Timers.live_start.mp hlive with hold | heq
  · exact hs.dormant hold
  · exact hother heq.symm

theorem clearTimer (hs : s.Halted n) (callback : Callback) : (s.clearTimer callback).Halted n :=
  ⟨hs.suspended, hs.created, fun hlive => hs.dormant (Timers.live_of_clear hlive)⟩

theorem forgetTimer (hs : s.Halted n) (callback : Callback) : (s.forgetTimer callback).Halted n :=
  ⟨hs.suspended, hs.created, hs.dormant⟩

theorem expire (hs : s.Halted n) (id : ℕ) : (s.expire id).Halted n :=
  ⟨hs.suspended, hs.created, fun hlive => hs.dormant (Timers.live_of_expire hlive)⟩

theorem updateConnection (hs : s.Halted n) (c : ℕ) (f : Connection → Connection) :
    (s.updateConnection c f).Halted n :=
  hs.of_timers rfl rfl rfl

theorem destroy (hs : s.Halted n) (c : ℕ) : (s.destroy c).Halted n :=
  hs.updateConnection c _

theorem markUnhealthy (hs : s.Halted n) (c : ℕ) : (s.markUnhealthy c).Halted n :=
  hs.updateConnection c _

theorem settle (hs : s.Halted n) (c : ℕ) : (s.settle c).Halted n := by
  apply hs.of_timers
  · unfold State.settle
    split_ifs <;> rfl
  · exact created_settle s c
  · exact timers_settle s c

theorem stopHeartbeat (hs : s.Halted n) (c : ℕ) : (s.stopHeartbeat c).Halted n :=
  ((((hs.clearTimer _).clearTimer _).forgetTimer _).forgetTimer _)

theorem cancelRefill (hs : s.Halted n) : s.cancelRefill.Halted n :=
  (hs.clearTimer .refill).forgetTimer .refill

/-! ## Frames -/

theorem onPreOk (hs : s.Halted n) (c : ℕ) : (s.onPreOk c).Halted n := by
  have hsettled := (hs.clearTimer (.ackDeadline c)).settle c
  have hpooled : Halted n { (s.clearTimer (.ackDeadline c)).settle c with
      pool := insert c ((s.clearTimer (.ackDeadline c)).settle c).pool } :=
    hsettled.of_timers rfl rfl rfl
  have hother : Callback.heartbeat c ≠ .refill := by simp
  have hformed := (hpooled.startTimer hother heartbeatIntervalMs).formPreconnectPool
  unfold State.onPreOk
  dsimp only
  split_ifs
  · exact hformed.of_timers rfl rfl rfl
  · exact hformed

theorem onPreErr (hs : s.Halted n) (c : ℕ) (args : List JsString) :
    (s.onPreErr c args).Halted n := by
  have hcleared := hs.clearTimer (.ackDeadline c)
  unfold State.onPreErr
  dsimp only
  split_ifs
  · have hsuspended : Halted n { s.clearTimer (.ackDeadline c) with suspended := true } :=
      ⟨rfl, hcleared.created, hcleared.dormant⟩
    exact (hsuspended.cancelRefill.settle c).destroy c
  · exact (hcleared.settle c).destroy c

theorem onOpen (hs : s.Halted n) (c : ℕ) (args : List JsString) (rest : List Byte) :
    (s.onOpen c args rest).Halted n := by
  have hstopped := (hs.updateConnection c fun k => { k with detached := true }).stopHeartbeat c
  have hconsumed : Halted n { (s.updateConnection c fun k =>
      { k with detached := true }).stopHeartbeat c with pool := s.pool.erase c } :=
    hstopped.of_timers rfl rfl rfl
  unfold State.onOpen pipeToLocalService
  dsimp only
  split
  · exact hconsumed.formPreconnectPool.updateConnection c _
  · exact hconsumed.formPreconnectPool.updateConnection c _

theorem onFrame (hs : s.Halted n) (c : ℕ) (frame : Frame) (rest : List Byte) :
    (State.onFrame c frame rest s).1.Halted n := by
  unfold State.onFrame
  split_ifs
  · exact hs.onPreOk c
  · exact hs.onPreErr c frame.args
  · exact (hs.clearTimer (.pongDeadline c)).forgetTimer (.pongDeadline c)
  · exact hs.onOpen c frame.args rest
  · exact hs

/-! ## Callbacks -/

theorem onSocketData (hs : s.Halted n) (c : ℕ) (chunk : List Byte) :
    (s.onSocketData c chunk).Halted n := by
  have hworld : (onData (State.onFrame c) (s.connections c).buffer chunk s).1.Halted n := by
    apply onData_invariant (Halted n) (Halted n) _ _ (fun _ ht => ht) (drainAll_true _ _ s) hs
    · intro frame rest t ht _ _
      exact ht.onFrame c frame rest
    · intro frame rest t ht _ _
      exact ht.onFrame c frame rest
  exact hworld.of_timers rfl rfl rfl

theorem onConnect (hs : s.Halted n) (c : ℕ) (secret : Option JsString) (timestamp : Number)
    (nonce : JsString) : (s.onConnect c secret timestamp nonce).Halted n := by
  have hconnected := ((hs.clearTimer (.connectDeadline c)).forgetTimer
    (.connectDeadline c)).updateConnection c fun k => { k with connected := true }
  unfold State.onConnect
  cases secret with
  | none => exact hconnected
  | some key => exact (hconnected.updateConnection c _).startTimer (by simp) ackTimeoutMs

theorem onClose (hs : s.Halted n) (c : ℕ) : (s.onClose c).Halted n := by
  have hstopped := (((hs.updateConnection c fun k => { k with closed := true }).clearTimer
    (.connectDeadline c)).clearTimer (.ackDeadline c)).stopHeartbeat c
  let removed : State := { ((((s.updateConnection c fun k => { k with closed := true }).clearTimer
    (.connectDeadline c)).clearTimer (.ackDeadline c)).stopHeartbeat c) with
    pool := s.pool.erase c }
  have hremoved : removed.Halted n := hstopped.of_timers rfl rfl rfl
  unfold State.onClose
  dsimp only
  split_ifs
  · exact (hremoved.settle c).scheduleRefill
  · exact hremoved.scheduleRefill
  · exact hremoved.formPreconnectPool
  · exact hremoved

/-- A registration that fails the checks only keeps the uuid. -/
theorem initPreconnectPool (hs : s.Halted n) {agentUuid secret : Option JsString}
    (h : ¬ (Event.init agentUuid secret).Resumes) :
    (s.initPreconnectPool agentUuid secret).Halted n := by
  have hfails : ((truthy agentUuid).isSome && secret.isSome) = false := by
    rw [← Bool.not_eq_true, Bool.and_eq_true]
    exact h
  unfold State.initPreconnectPool
  dsimp only
  rw [hfails]
  cases truthy agentUuid with
  | none => exact hs
  | some uuid => exact hs.of_timers rfl rfl rfl

theorem onTimer (hs : s.Halted n) (callback : Callback) : (s.onTimer callback).Halted n := by
  cases callback with
  | connectDeadline c =>
      exact ((hs.forgetTimer (.connectDeadline c)).markUnhealthy c).destroy c
  | ackDeadline c => exact hs.destroy c
  | heartbeat c =>
      unfold State.onTimer
      dsimp only
      split_ifs
      · exact hs
      · exact (hs.updateConnection c _).startTimer (by simp) pongTimeoutMs
  | pongDeadline c => exact (hs.markUnhealthy c).destroy c
  | refill => exact (hs.forgetTimer .refill).formPreconnectPool

theorem fire (hs : s.Halted n) (t : Timer Callback) : (s.fire t).Halted n := by
  unfold State.fire
  split_ifs
  · exact hs.onTimer t.key
  · exact (hs.expire t.id).onTimer t.key

end Halted

theorem halted_step {s' : State} {event : Event} (hs : s.Halted n) (hevent : ¬ event.Resumes)
    (hstep : step s event = some s') : s'.Halted n := by
  cases transition_of_step hstep with
  | init agentUuid secret => exact hs.initPreconnectPool hevent
  | connect c secret timestamp nonce _ _ _ => exact hs.onConnect c secret timestamp nonce
  | data c chunk _ _ _ _ _ => exact hs.onSocketData c chunk
  | error c => exact hs.markUnhealthy c
  | close c _ _ => exact hs.onClose c
  | timer t _ => exact hs.fire t

theorem halted_run {s' : State} {events : List Event} (hs : s.Halted n)
    (hevents : ∀ event ∈ events, ¬ event.Resumes) (hrun : service.run s events = some s') :
    s'.Halted n := by
  have hkeep (t : State) (event : Event) (t' : State) (ht : t.Halted n) (hevent : ¬ event.Resumes)
      (hstep : service.step t event = some t') : t'.Halted n := halted_step ht hevent hstep
  exact Machine.Along.run_invariant hkeep (Machine.along_of_forall hevents s) hs hrun

/-! ## The rejection -/

/-- `PRE:ERR` with a reason among the fatal ones. -/
def FatalRejection (frame : Frame) : Prop :=
  frame.verb = js "PRE:ERR" ∧ frame.args.head?.getD (js "unknown") ∈ fatalRejections

/-- The frame is handled in the course of the event, and `t` is the state right
after it. -/
def Handles (s : State) (frame : Frame) (t : State) : Event → Prop
  | .data c chunk => HandedOver (onFrame c) frame t ((s.connections c).buffer ++ chunk).length
      ((s.connections c).buffer ++ chunk) s
  | _ => False

/-- The refill timer can be cleared, so the rejection leaves none. -/
theorem RefillKept.halted_onFrame (hs : s.RefillKept) {frame : Frame} (h : FatalRejection frame)
    (c : ℕ) (rest : List Byte) :
    (State.onFrame c frame rest s).1.Halted (State.onFrame c frame rest s).1.created := by
  have hcleared : (s.clearTimer (.ackDeadline c)).RefillKept := hs.clearTimer _ (by simp)
  have hsuspended : Halted s.created
      (State.cancelRefill { s.clearTimer (.ackDeadline c) with suspended := true }) :=
    ⟨rfl, rfl, hcleared.owned.not_live_clear⟩
  have hverb : frame.verb ≠ js "PRE:OK" := by
    rw [h.1]
    decide
  have hrejected : (State.onFrame c frame rest s).1.Halted s.created := by
    rw [State.onFrame, if_neg hverb, if_pos h.1, onPreErr, if_pos h.2]
    exact (hsuspended.settle c).destroy c
  rw [hrejected.created]
  exact hrejected

/-- The rest of the chunk changes nothing about it. -/
theorem Handles.halted {s' t : State} {frame : Frame} {event : Event} (hs : s.RefillKept)
    (h : s.Handles frame t event) (hfatal : FatalRejection frame)
    (hstep : step s event = some s') : t.Halted t.created ∧ s'.Halted t.created := by
  cases transition_of_step hstep with
  | data c chunk _ _ _ _ _ =>
      have hkept (frame : Frame) (rest : List Byte) (t : State) (ht : t.RefillKept) :
          (onFrame c frame rest t).1.RefillKept := ht.onFrame c frame rest
      obtain ⟨u, rest, hu, rfl⟩ := HandedOver.before hkept h hs
      have hhalted := hu.halted_onFrame hfatal c rest
      have hstays (frame' : Frame) (rest' : List Byte) (t : State)
          (ht : t.Halted (onFrame c frame rest u).1.created) :
          (onFrame c frame' rest' t).1.Halted (onFrame c frame rest u).1.created :=
        ht.onFrame c frame' rest'
      have hend := HandedOver.after hstays h hhalted
      exact ⟨hhalted, hend.of_timers rfl rfl rfl⟩
  | init | connect | error | close | timer => exact h.elim

end State

/-- From the moment a fatal rejection is handled until a registration that
passes the checks, no connection is started and no refill timer is live. -/
theorem fatal_rejection_halts {s s' t u : State} {before later : List Event} {event : Event}
    {frame : Frame} (hbefore : service.run start before = some s)
    (hevent : service.step s event = some s') (hhandled : s.Handles frame t event)
    (hfatal : State.FatalRejection frame) (hlater : service.run s' later = some u)
    (hregister : ∀ e ∈ later, ¬ e.Resumes) :
    t.suspended = true ∧ ¬ t.timers.Live .refill ∧ u.created = t.created ∧
      ¬ u.timers.Live .refill := by
  obtain ⟨ht, hs'⟩ := hhandled.halted (State.refillKept_run hbefore) hfatal hevent
  have hu := State.halted_run hs' hregister hlater
  exact ⟨ht.suspended, ht.dormant, hu.created, hu.dormant⟩

/-- The second connection is rejected while the first is pooled and eight more
are on their way. The rest of the chunk, an error, closes and a connect
deadline follow. -/
theorem fatal_rejection_halts_example :
    let before := firstContact ++ [sends 0 "PRE:OK\n",
      .connect 1 (some (js "secret")) (Number.ofInt 1756000000000) (js "n2")]
    let later : List Event := [.close 1, .error 0, .close 0, .timer 5, .close 4]
    ∃ s s' t u, service.run start before = some s ∧
      service.step s (sends 1 "PRE:ERR expired\nPRE:OK\n") = some s' ∧
      s.Handles ⟨js "PRE:ERR", [js "expired"]⟩ t (sends 1 "PRE:ERR expired\nPRE:OK\n") ∧
      service.run s' later = some u ∧ u.created = t.created ∧ ¬ u.timers.Live .refill := by
  intro before later
  have hrun : ((service.run start before).bind fun s =>
      (service.step s (sends 1 "PRE:ERR expired\nPRE:OK\n")).bind fun s' =>
        (service.run s' later).map fun _ => (s.connections 1).buffer) = some [] := by decide +kernel
  obtain ⟨s, hs, hrun⟩ := Option.bind_eq_some_iff.mp hrun
  obtain ⟨s', hs', hrun⟩ := Option.bind_eq_some_iff.mp hrun
  obtain ⟨u, hu, hbuffer⟩ := Option.map_eq_some_iff.mp hrun
  have hline : takeLine ([] ++ utf8Bytes (js "PRE:ERR expired\nPRE:OK\n")) =
      some (utf8Bytes (js "PRE:ERR expired"), utf8Bytes (js "PRE:OK\n")) := by decide +kernel
  have hframe : parseFrame (utf8Bytes (js "PRE:ERR expired")) =
      ⟨js "PRE:ERR", [js "expired"]⟩ := by decide +kernel
  have hhandled : s.Handles ⟨js "PRE:ERR", [js "expired"]⟩ (State.onFrame 1
      ⟨js "PRE:ERR", [js "expired"]⟩ (utf8Bytes (js "PRE:OK\n")) s).1
        (sends 1 "PRE:ERR expired\nPRE:OK\n") := by
    unfold State.Handles sends
    dsimp only
    rw [hbuffer, ← hframe]
    exact handedOver_first hline s
  have hregister : ∀ e ∈ later, ¬ e.Resumes := by
    simp [later, Event.Resumes]
  obtain ⟨-, -, hcreated, hdormant⟩ := fatal_rejection_halts hs hs' hhandled
    ⟨rfl, by decide +kernel⟩ hu hregister
  exact ⟨s, s', _, u, hs, hs', hhandled, hu, hcreated, hdormant⟩

end OpticsAgent.Tunnel
