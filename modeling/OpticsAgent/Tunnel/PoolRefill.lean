import Mathlib
import OpticsAgent.Tunnel.PoolTimers

/-!
Whether the pool keeps trying. After every callback that changes the pool or
the counter it is filled again or a refill is scheduled, with one exception: a
rejection that a retry could fix settles its connection, and the close event
that follows finds neither an unsettled nor a pooled connection. When it was
the last attempt, nothing is left that would refill the pool.
-/

namespace OpticsAgent.Tunnel

open OpticsAgent.Ecma OpticsAgent.Node OpticsAgent.Utility OpticsAgent.Lib

namespace State

/-! ## The refill timer -/

/-- `this.refillTimer` is set exactly while the refill timer is live. -/
structure RefillKept (s : State) : Prop where
  sound : s.timers.Sound
  owned : s.timers.Owned .refill
  armed : s.timers.Armed .refill

theorem RefillKept.startTimer {s : State} (hs : s.RefillKept) (callback : Callback)
    (hother : callback ≠ .refill) (delayMs : ℕ) : (s.startTimer callback delayMs).RefillKept :=
  ⟨hs.sound.start callback delayMs, hs.owned.start_of_ne hother.symm, hs.armed.start⟩

theorem RefillKept.clearTimer {s : State} (hs : s.RefillKept) (callback : Callback)
    (hother : callback ≠ .refill) : (s.clearTimer callback).RefillKept :=
  ⟨hs.sound.clear callback, hs.owned.clear, hs.armed.clear_of_ne hs.sound hother.symm⟩

theorem RefillKept.forgetTimer {s : State} (hs : s.RefillKept) (callback : Callback)
    (hother : callback ≠ .refill) : (s.forgetTimer callback).RefillKept :=
  ⟨hs.sound.forget callback, hs.owned.forget_of_ne hother.symm, hs.armed.forget⟩

theorem RefillKept.of_timers {s s' : State} (hs : s.RefillKept) (h : s'.timers = s.timers) :
    s'.RefillKept :=
  ⟨h ▸ hs.sound, h ▸ hs.owned, h ▸ hs.armed⟩

theorem RefillKept.stopHeartbeat {s : State} (hs : s.RefillKept) (c : ℕ) :
    (s.stopHeartbeat c).RefillKept := by
  have hcleared := (hs.clearTimer (.heartbeat c) (by simp)).clearTimer (.pongDeadline c) (by simp)
  exact (hcleared.forgetTimer (.heartbeat c) (by simp)).forgetTimer (.pongDeadline c) (by simp)

theorem RefillKept.cancelRefill {s : State} (hs : s.RefillKept) : s.cancelRefill.RefillKept :=
  ⟨(hs.sound.clear .refill).forget .refill, hs.owned.clear.forget hs.owned.not_live_clear,
    Timers.armed_forget_self⟩

theorem RefillKept.scheduleRefill {s : State} (hs : s.RefillKept) :
    s.scheduleRefill.RefillKept := by
  unfold State.scheduleRefill
  split_ifs with hskip
  · exact hs
  · rw [Bool.or_eq_true, not_or, Option.not_isSome_iff_eq_none] at hskip
    exact ⟨hs.sound.start _ _, hs.owned.start (hs.owned.not_live_of_unset hskip.2),
      hs.armed.start⟩

theorem RefillKept.formPreconnectPool {s : State} (hs : s.RefillKept) :
    s.formPreconnectPool.RefillKept := by
  apply formPreconnectPool_induction (P := RefillKept) _ hs
  intro t ht _
  have hnew : t.netConnect.RefillKept := ht.of_timers rfl
  exact hnew.startTimer (.connectDeadline t.created) (by simp) connectTimeoutMs

theorem RefillKept.onFrame {s : State} (hs : s.RefillKept) (c : ℕ) (frame : Frame)
    (rest : List Byte) : (onFrame c frame rest s).1.RefillKept := by
  unfold State.onFrame
  split_ifs
  · have hcleared : (s.clearTimer (.ackDeadline c)).RefillKept := hs.clearTimer _ (by simp)
    have hsettled := hcleared.of_timers (timers_settle _ c)
    have hpooled : RefillKept { (s.clearTimer (.ackDeadline c)).settle c with
        pool := insert c ((s.clearTimer (.ackDeadline c)).settle c).pool } :=
      hsettled.of_timers rfl
    have hbeating := hpooled.startTimer (.heartbeat c) (by simp) heartbeatIntervalMs
    have hformed := hbeating.formPreconnectPool
    unfold onPreOk
    dsimp only
    split_ifs
    · exact hformed.of_timers rfl
    · exact hformed
  · have hcleared : (s.clearTimer (.ackDeadline c)).RefillKept := hs.clearTimer _ (by simp)
    unfold onPreErr
    dsimp only
    refine RefillKept.of_timers ?_ (timers_settle _ c)
    split_ifs
    · exact RefillKept.cancelRefill (hcleared.of_timers rfl)
    · exact hcleared
  · exact (hs.clearTimer (.pongDeadline c) (by simp)).forgetTimer (.pongDeadline c) (by simp)
  · have hdetached : (s.updateConnection c fun k => { k with detached := true }).RefillKept :=
      hs.of_timers rfl
    have hconsumed : RefillKept { (s.updateConnection c fun k =>
        { k with detached := true }).stopHeartbeat c with pool := s.pool.erase c } :=
      (hdetached.stopHeartbeat c).of_timers rfl
    unfold onOpen pipeToLocalService
    dsimp only
    split
    · exact hconsumed.formPreconnectPool.of_timers rfl
    · exact hconsumed.formPreconnectPool.of_timers rfl
  · exact hs

theorem RefillKept.onSocketData {s : State} (hs : s.RefillKept) (c : ℕ) (chunk : List Byte) :
    (s.onSocketData c chunk).RefillKept := by
  have hworld : (onData (State.onFrame c) (s.connections c).buffer chunk s).1.RefillKept := by
    apply onData_invariant RefillKept RefillKept _ _ _ (drainAll_true _ _ s) hs
    · intro frame rest t ht _ _
      exact ht.onFrame c frame rest
    · intro frame rest t ht _ _
      exact ht.onFrame c frame rest
    · intro t ht
      exact ht
  exact hworld.of_timers rfl

theorem RefillKept.onClose {s : State} (hs : s.RefillKept) (c : ℕ) : (s.onClose c).RefillKept := by
  have hcleared := (hs.clearTimer (.connectDeadline c) (by simp)).clearTimer (.ackDeadline c)
    (by simp)
  have hstopped := hcleared.stopHeartbeat c
  let removed : State := { ((((s.updateConnection c fun k => { k with closed := true }).clearTimer
    (.connectDeadline c)).clearTimer (.ackDeadline c)).stopHeartbeat c) with
    pool := s.pool.erase c }
  have hremoved : removed.RefillKept := hstopped.of_timers rfl
  unfold State.onClose
  dsimp only
  split_ifs
  · exact (hremoved.of_timers (timers_settle removed c)).scheduleRefill
  · exact hremoved.scheduleRefill
  · exact hremoved.formPreconnectPool
  · exact hremoved

theorem RefillKept.initPreconnectPool {s : State} (hs : s.RefillKept)
    (agentUuid secret : Option JsString) :
    (s.initPreconnectPool agentUuid secret).RefillKept := by
  unfold State.initPreconnectPool
  cases truthy agentUuid with
  | none => exact hs
  | some uuid =>
      have hnamed : RefillKept { s with
          agentUuid := some uuid, suspended := false, consecutiveFailures := 0 } :=
        hs.of_timers rfl
      dsimp only
      split_ifs
      · exact hnamed.cancelRefill.formPreconnectPool
      · exact hs.of_timers rfl

theorem RefillKept.onConnect {s : State} (hs : s.RefillKept) (c : ℕ) (secret : Option JsString)
    (timestamp : Number) (nonce : JsString) :
    (s.onConnect c secret timestamp nonce).RefillKept := by
  have hcleared := (hs.clearTimer (.connectDeadline c) (by simp)).forgetTimer (.connectDeadline c)
    (by simp)
  unfold State.onConnect
  cases secret with
  | none => exact hcleared.of_timers rfl
  | some key =>
      apply RefillKept.startTimer _ (.ackDeadline c) (by simp)
      exact hcleared.of_timers rfl

/-- A refill timer that fires is the one the variable names. -/
theorem RefillKept.fire {s : State} (hs : s.RefillKept) {t : Timer Callback}
    (ht : t ∈ s.timers.live) : (s.fire t).RefillKept := by
  obtain ⟨id, callback, delayMs⟩ := t
  have hexpired (hother : callback ≠ .refill) : (s.expire id).RefillKept :=
    ⟨hs.sound.expire id, hs.owned.expire, hs.armed.expire_of_ne hs.sound ht hother⟩
  cases callback with
  | connectDeadline c =>
      exact ((hexpired (by simp)).forgetTimer (.connectDeadline c) (by simp)).of_timers rfl
  | ackDeadline c => exact (hexpired (by simp)).of_timers rfl
  | heartbeat c =>
      have hwritten : (s.write c (js "PING\n")).RefillKept := hs.of_timers rfl
      change (s.onTimer (.heartbeat c)).RefillKept
      unfold State.onTimer
      dsimp only
      split_ifs
      · exact hs
      · exact hwritten.startTimer (.pongDeadline c) (by simp) pongTimeoutMs
  | pongDeadline c => exact (hexpired (by simp)).of_timers rfl
  | refill =>
      have hforgotten : ((s.expire id).forgetTimer .refill).RefillKept :=
        ⟨(hs.sound.expire id).forget .refill,
          hs.owned.expire.forget (hs.owned.not_live_expire ht), Timers.armed_forget_self⟩
      exact hforgotten.formPreconnectPool

theorem refillKept_step {s s' : State} {event : Event} (hs : s.RefillKept)
    (hstep : step s event = some s') : s'.RefillKept := by
  cases transition_of_step hstep with
  | init agentUuid secret => exact hs.initPreconnectPool agentUuid secret
  | connect c secret timestamp nonce _ _ _ => exact hs.onConnect c secret timestamp nonce
  | data c chunk _ _ _ _ _ => exact hs.onSocketData c chunk
  | error c => exact hs.of_timers rfl
  | close c _ _ => exact hs.onClose c
  | timer t hlive => exact hs.fire hlive

theorem refillKept_run {s : State} {events : List Event}
    (hrun : service.run start events = some s) : s.RefillKept := by
  have hstart : start.RefillKept := by
    refine ⟨tended_start.sound, tended_start.owned .refill, ?_⟩
    intro id hid
    cases hid
  refine Machine.run_invariant (M := service) ?_ hstart hrun
  intro s event s' hs hstep
  exact refillKept_step hs hstep

/-! ## Something is left to do -/

/-- The pool is full, an attempt is pending or a refill is scheduled, unless
the pool is suspended. -/
def Trying (s : State) : Prop :=
  s.suspended = false →
    (targetPoolCount : ℤ) ≤ s.pool.card + s.pending ∨ 0 < s.pending ∨
      (s.timers.handles .refill).isSome

theorem trying_of_suspended {s : State} (h : s.suspended = true) : s.Trying := by
  intro hopen
  rw [h] at hopen
  cases hopen

theorem Trying.of_counts {s s' : State} (hs : s.Trying) (hsuspended : s'.suspended = s.suspended)
    (hpool : s'.pool = s.pool) (hpending : s'.pending = s.pending)
    (hrefill : s'.timers.handles .refill = s.timers.handles .refill) : s'.Trying := by
  intro hopen
  rw [hpool, hpending, hrefill]
  exact hs (hsuspended.symm.trans hopen)

theorem fillTo_frame (limit fuel : ℕ) (s : State) :
    (fillTo limit fuel s).pool = s.pool ∧ (fillTo limit fuel s).suspended = s.suspended := by
  induction fuel generalizing s with
  | zero => exact ⟨rfl, rfl⟩
  | succ fuel ih =>
      unfold fillTo
      split_ifs
      · exact ih s.preconnect
      · exact ⟨rfl, rfl⟩

/-- With a turn for every missing connection the loop reaches its limit. -/
theorem limit_le_fillTo {limit fuel : ℕ} {s : State}
    (hfuel : (limit : ℤ) ≤ s.pool.card + s.pending + fuel) :
    (limit : ℤ) ≤ (fillTo limit fuel s).pool.card + (fillTo limit fuel s).pending := by
  induction fuel generalizing s with
  | zero => simpa [fillTo] using hfuel
  | succ fuel ih =>
      unfold fillTo
      split_ifs with hroom
      · apply ih
        rw [pool_preconnect, pending_preconnect]
        push_cast at hfuel
        omega
      · exact not_lt.mp hroom

theorem trying_formPreconnectPool (s : State) : s.formPreconnectPool.Trying := by
  unfold formPreconnectPool
  split_ifs with hsuspended
  · exact trying_of_suspended hsuspended
  · intro _
    have hreached : (s.poolLimit : ℤ) ≤
        (fillTo s.poolLimit ((s.poolLimit : ℤ) - (s.pool.card + s.pending)).toNat s).pool.card +
        (fillTo s.poolLimit ((s.poolLimit : ℤ) - (s.pool.card + s.pending)).toNat s).pending :=
      limit_le_fillTo (by omega)
    have hpool := (fillTo_frame s.poolLimit
      ((s.poolLimit : ℤ) - (s.pool.card + s.pending)).toNat s).1
    generalize fillTo s.poolLimit ((s.poolLimit : ℤ) - (s.pool.card + s.pending)).toNat s = filled
      at hreached hpool
    rcases Nat.eq_zero_or_pos s.pool.card with hempty | hpos
    · have hlimit : s.poolLimit = 1 := if_pos hempty
      rw [hpool, hempty, hlimit] at hreached
      right
      left
      push_cast at hreached
      omega
    · have hlimit : s.poolLimit = targetPoolCount := if_neg (Nat.ne_of_gt hpos)
      rw [hlimit] at hreached
      exact Or.inl hreached

theorem trying_scheduleRefill (s : State) : s.scheduleRefill.Trying := by
  unfold scheduleRefill
  split_ifs with hskip
  · intro hopen
    rw [hopen, Bool.false_or] at hskip
    exact Or.inr (Or.inr hskip)
  · intro _
    right
    right
    exact Option.isSome_iff_exists.mpr ⟨_, Timers.handles_start_self⟩

/-! ## Frames -/

/-- What a frame must find for the pool to keep trying: a rejection that a
retry could fix is not the last attempt's, or a refill is scheduled. -/
def KeepsTryingFrame (c : ℕ) (s : State) (frame : Frame) : Prop :=
  ¬ (frame.verb = js "PRE:ERR" ∧ frame.args.head?.getD (js "unknown") ∉ fatalRejections ∧
    (s.connections c).settled = false ∧ s.pending = 1 ∧ s.suspended = false ∧
    s.timers.handles .refill = none)

instance (c : ℕ) (s : State) (frame : Frame) : Decidable (KeepsTryingFrame c s frame) :=
  inferInstanceAs (Decidable (¬ _))

theorem Trying.onPreErr {s : State} {c : ℕ} (hs : s.Trying) (hbooks : s.InChunk c)
    {frame : Frame} (hverb : frame.verb = js "PRE:ERR") (hok : KeepsTryingFrame c s frame) :
    (s.onPreErr c frame.args).Trying := by
  unfold State.onPreErr
  dsimp only
  split_ifs with hfatal
  · apply trying_of_suspended
    unfold settle
    split_ifs <;> rfl
  · cases hsettled : (s.connections c).settled with
    | true =>
        have hskip : (s.clearTimer (.ackDeadline c)).settle c = s.clearTimer (.ackDeadline c) :=
          settle_of_settled hsettled
        rw [hskip]
        exact hs.of_counts rfl rfl rfl rfl
    | false =>
        have hmem : c ∈ s.unsettled := by simp [unsettled, hsettled, hbooks.created]
        have hpositive : 0 < s.unsettled.card := Finset.card_pos.mpr ⟨c, hmem⟩
        have hpending := hbooks.accounting.pending_eq
        have hcounted : ((s.clearTimer (.ackDeadline c)).settle c).pending = s.pending - 1 := by
          rw [settle, if_neg]
          · rfl
          · exact fun h => by simp [clearTimer, hsettled] at h
        intro hopen
        have hrunning : s.suspended = false := by
          unfold settle at hopen
          split_ifs at hopen <;> exact hopen
        by_cases hlast : s.pending = 1
        · right
          right
          have hset : s.timers.handles .refill ≠ none := fun hunset =>
            hok ⟨hverb, hfatal, hsettled, hlast, hrunning, hunset⟩
          change (((s.clearTimer (.ackDeadline c)).settle c).timers.handles .refill).isSome
          rw [timers_settle]
          exact Option.isSome_iff_ne_none.mpr hset
        · right
          left
          change 0 < ((s.clearTimer (.ackDeadline c)).settle c).pending
          rw [hcounted]
          omega

theorem Trying.onFrame {s : State} {c : ℕ} (hs : s.Trying) (hbooks : s.InChunk c)
    {frame : Frame} (rest : List Byte) (hok : KeepsTryingFrame c s frame) :
    (onFrame c frame rest s).1.Trying := by
  unfold State.onFrame
  split_ifs with hpreOk hpreErr
  · unfold onPreOk
    dsimp only
    split_ifs
    · exact (trying_formPreconnectPool _).of_counts rfl rfl rfl rfl
    · exact trying_formPreconnectPool _
  · exact hs.onPreErr hbooks hpreErr hok
  · refine hs.of_counts rfl rfl rfl ?_
    exact Timers.handles_forget_of_ne (by simp)
  · unfold onOpen pipeToLocalService
    dsimp only
    split
    · exact (trying_formPreconnectPool _).of_counts rfl rfl rfl rfl
    · exact (trying_formPreconnectPool _).of_counts rfl rfl rfl rfl
  · exact hs

/-! ## Callbacks -/

/-- Every frame of a chunk leaves the pool trying. -/
def KeepsTrying (s : State) : Event → Prop
  | .data c chunk =>
      DrainAll (onFrame c) (KeepsTryingFrame c) ((s.connections c).buffer ++ chunk).length
        ((s.connections c).buffer ++ chunk) s
  | _ => True

instance (s : State) : ∀ event, Decidable (s.KeepsTrying event)
  | .data c _ => inferInstanceAs (Decidable (DrainAll (onFrame c) (KeepsTryingFrame c) _ _ s))
  | .init _ _ => isTrue trivial
  | .connect _ _ _ _ => isTrue trivial
  | .error _ => isTrue trivial
  | .close _ => isTrue trivial
  | .timer _ => isTrue trivial

theorem Trying.onSocketData {s : State} {c : ℕ} {chunk : List Byte} (hs : s.Trying)
    (hbooks : s.InChunk c) (hok : s.KeepsTrying (.data c chunk)) :
    (s.onSocketData c chunk).Trying := by
  have hworld : (onData (State.onFrame c) (s.connections c).buffer chunk s).1.Trying := by
    apply onData_invariant (fun t => t.InChunk c ∧ t.Trying) Trying _ _ _ hok ⟨hbooks, hs⟩
    · intro frame rest t ht hframe hkept
      exact ⟨(ht.1.onFrame frame rest).1 hkept, ht.2.onFrame ht.1 rest hframe⟩
    · intro frame rest t ht hframe _
      exact ht.2.onFrame ht.1 rest hframe
    · intro t ht
      exact ht.2
  exact hworld.of_counts rfl rfl rfl rfl

theorem Trying.onClose {s : State} (hs : s.Trying) (c : ℕ) : (s.onClose c).Trying := by
  unfold State.onClose
  dsimp only
  split_ifs with hunsettled hpooled hunhealthy
  · exact trying_scheduleRefill _
  · exact trying_scheduleRefill _
  · exact trying_formPreconnectPool _
  · have hpool : s.pool.erase c = s.pool := Finset.erase_eq_of_notMem hpooled
    refine hs.of_counts rfl hpool rfl ?_
    exact (Timers.handles_forget_of_ne (by simp)).trans (Timers.handles_forget_of_ne (by simp))

theorem Trying.initPreconnectPool {s : State} (hs : s.Trying)
    (agentUuid secret : Option JsString) : (s.initPreconnectPool agentUuid secret).Trying := by
  unfold State.initPreconnectPool
  cases truthy agentUuid with
  | none => exact hs
  | some uuid =>
      dsimp only
      split_ifs
      · exact trying_formPreconnectPool _
      · exact hs.of_counts rfl rfl rfl rfl

theorem Trying.onConnect {s : State} (hs : s.Trying) (c : ℕ) (secret : Option JsString)
    (timestamp : Number) (nonce : JsString) :
    (s.onConnect c secret timestamp nonce).Trying := by
  have hforgotten : ((s.clearTimer (.connectDeadline c)).forgetTimer
      (.connectDeadline c)).timers.handles .refill = s.timers.handles .refill :=
    Timers.handles_forget_of_ne (by simp)
  unfold State.onConnect
  cases secret with
  | none => exact hs.of_counts rfl rfl rfl hforgotten
  | some key =>
      refine hs.of_counts rfl rfl rfl ?_
      exact (Timers.handles_start_of_ne (by simp)).trans hforgotten

theorem Trying.fire {s : State} (hs : s.Trying) (t : Timer Callback) : (s.fire t).Trying := by
  obtain ⟨id, callback, delayMs⟩ := t
  cases callback with
  | connectDeadline c =>
      refine hs.of_counts rfl rfl rfl ?_
      exact Timers.handles_forget_of_ne (by simp)
  | ackDeadline c => exact hs.of_counts rfl rfl rfl rfl
  | heartbeat c =>
      change (s.onTimer (.heartbeat c)).Trying
      unfold State.onTimer
      dsimp only
      split_ifs
      · exact hs
      · refine hs.of_counts rfl rfl rfl ?_
        exact Timers.handles_start_of_ne (by simp)
  | pongDeadline c => exact hs.of_counts rfl rfl rfl rfl
  | refill => exact trying_formPreconnectPool _

theorem trying_step {s s' : State} {event : Event} (hs : s.Trying) (hbooks : s.Balanced)
    (hok : s.KeepsTrying event) (hstep : step s event = some s') : s'.Trying := by
  cases transition_of_step hstep with
  | init agentUuid secret => exact hs.initPreconnectPool agentUuid secret
  | connect c secret timestamp nonce _ _ _ => exact hs.onConnect c secret timestamp nonce
  | data c chunk hcreated _ hintact halive hreading =>
      exact hs.onSocketData (hbooks.inChunk hcreated hintact halive hreading) hok
  | error c => exact hs.of_counts rfl rfl rfl rfl
  | close c _ _ => exact hs.onClose c
  | timer t _ => exact hs.fire t

theorem trying_run {s t : State} {events : List Event} (hs : s.Trying) (hbooks : s.Balanced)
    (hok : service.Along KeepsTrying s events) (hrun : service.run s events = some t) :
    t.Trying := by
  have hboth : t.Trying ∧ t.Balanced := by
    refine @Machine.Along.run_invariant State Event service KeepsTrying
      (fun u => u.Trying ∧ u.Balanced) ?_ s t events hok ⟨hs, hbooks⟩ hrun
    intro s event s' h hevent hstep
    exact ⟨trying_step h.1 h.2 hevent hstep, balanced_step h.2 hstep⟩
  exact hboth.1

theorem trying_registered (s : State) {agentUuid secret : JsString} (huuid : agentUuid ≠ []) :
    (s.initPreconnectPool (some agentUuid) (some secret)).Trying := by
  have htruthy : truthy (some agentUuid) = some agentUuid := by simp [truthy, huuid]
  unfold State.initPreconnectPool
  simp only [htruthy, Option.isSome_some, Bool.and_self, if_true]
  exact trying_formPreconnectPool _

end State

/-- After a successful registration, along a run whose last pending attempt is
never rejected for a reason a retry could fix, a pool below its target that is
not suspended has an attempt pending or a refill timer live; a connection that
left the count without its close event is not even needed. -/
theorem pool_never_stalls (registered s : State) (history events : List Event)
    (agentUuid secret : JsString) (huuid : agentUuid ≠ [])
    (hhistory : service.run start (history ++ [.init (some agentUuid) (some secret)]) =
      some registered)
    (hrun : service.run registered events = some s)
    (hkeeps : service.Along State.KeepsTrying registered events)
    (hsuspended : s.suspended = false) :
    ((s.pool.card : ℤ) + s.pending < targetPoolCount →
      0 < s.pending ∨ s.timers.Live .refill ∨
        ∃ c < s.created, (s.connections c).settled = true ∧ c ∉ s.pool ∧
          (s.connections c).closed = false) ∧
    ¬ (s.pool = ∅ ∧ s.pending = 0 ∧ ¬ s.timers.Live .refill) := by
  have htrying : registered.Trying := by
    rw [Machine.run_append] at hhistory
    obtain ⟨before, -, hinit⟩ := Option.bind_eq_some_iff.mp hhistory
    obtain rfl := Option.some.inj hinit
    exact State.trying_registered before huuid
  have hwhole : service.run start ((history ++ [.init (some agentUuid) (some secret)]) ++ events) =
      some s := by
    rw [Machine.run_append, hhistory]
    exact hrun
  have hrefill := State.refillKept_run hwhole
  have hleft := State.trying_run htrying (State.balanced_run hhistory) hkeeps hrun hsuspended
  have hlive (hset : (s.timers.handles .refill).isSome) : s.timers.Live .refill :=
    hrefill.armed.live hrefill.sound hset
  constructor
  · intro hbelow
    rcases hleft with hfull | hpending | hset
    · exact absurd hbelow (not_lt.mpr hfull)
    · exact Or.inl hpending
    · exact Or.inr (Or.inl (hlive hset))
  · rintro ⟨hempty, hpending, hdead⟩
    rcases hleft with hfull | hpositive | hset
    · rw [hempty, hpending, Finset.card_empty] at hfull
      exact absurd hfull (by decide)
    · omega
    · exact hdead (hlive hset)

/-- A rejection while another attempt is pending, and the close after it. -/
theorem pool_never_stalls_rejected :
    let events := [.connect 0 (some (js "secret")) (Number.ofInt 1756000000000) (js "n1"),
      sends 0 "PRE:OK\n", .connect 1 (some (js "secret")) (Number.ofInt 1756000000000) (js "n2"),
      sends 1 "PRE:ERR busy\n", .close 1]
    ∃ registered s, service.run start ([] ++ [.init (some (js "agent")) (some (js "secret"))]) =
        some registered ∧ service.run registered events = some s ∧ s.pending = 8 ∧
      ((s.pool.card : ℤ) + s.pending < targetPoolCount →
        0 < s.pending ∨ s.timers.Live .refill ∨
          ∃ c < s.created, (s.connections c).settled = true ∧ c ∉ s.pool ∧
            (s.connections c).closed = false) := by
  intro events
  let registered := State.initPreconnectPool start (some (js "agent")) (some (js "secret"))
  have hregistered : service.run start ([] ++ [.init (some (js "agent")) (some (js "secret"))]) =
      some registered := rfl
  have hkeeps : service.Along State.KeepsTrying registered events := by decide +kernel
  have hcounts : (service.run registered events).map (fun s => (s.pending, s.suspended)) =
      some (8, false) := by decide +kernel
  obtain ⟨s, hrun, hs⟩ := Option.map_eq_some_iff.mp hcounts
  obtain ⟨hpending, hsuspended⟩ := Prod.mk.inj hs
  exact ⟨registered, s, hregistered, hrun, hpending, (pool_never_stalls registered s [] events
    (js "agent") (js "secret") (by decide) hregistered hrun hkeeps hsuspended).1⟩

/-- The only attempt is rejected and its connection closes: the pool is empty,
nothing is pending and no refill is scheduled. -/
theorem pool_never_stalls_fails :
    ¬ ∀ (registered s : State) (history events : List Event) (agentUuid secret : JsString),
      agentUuid ≠ [] →
      service.run start (history ++ [.init (some agentUuid) (some secret)]) = some registered →
      service.run registered events = some s → s.suspended = false →
      ((s.pool.card : ℤ) + s.pending < targetPoolCount →
        0 < s.pending ∨ s.timers.Live .refill ∨
          ∃ c < s.created, (s.connections c).settled = true ∧ c ∉ s.pool ∧
            (s.connections c).closed = false) ∧
      ¬ (s.pool = ∅ ∧ s.pending = 0 ∧ ¬ s.timers.Live .refill) := by
  intro hclaim
  let registered := State.initPreconnectPool start (some (js "agent")) (some (js "secret"))
  let events := [.connect 0 (some (js "secret")) (Number.ofInt 1756000000000) (js "n1"),
    sends 0 "PRE:ERR busy\n", .close 0]
  have hstalled : (service.run registered events).map (fun s =>
      (s.suspended, s.pool, s.pending, decide (s.timers.Live .refill))) =
      some (false, ∅, 0, false) := by decide +kernel
  obtain ⟨s, hrun, hs⟩ := Option.map_eq_some_iff.mp hstalled
  obtain ⟨hsuspended, hpool, hpending, hdead⟩ : s.suspended = false ∧ s.pool = ∅ ∧
      s.pending = 0 ∧ decide (s.timers.Live .refill) = false := by simpa using hs
  exact (hclaim registered s [] events (js "agent") (js "secret") (by decide) rfl hrun
    hsuspended).2 ⟨hpool, hpending, of_decide_eq_false hdead⟩

end OpticsAgent.Tunnel
