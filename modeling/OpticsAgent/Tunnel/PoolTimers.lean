import Mathlib
import OpticsAgent.Tunnel.PoolAccounting

/-!
The timers of a connection. They are cleared through variables when the line
phase ends, so a timer whose variable was assigned again, or that the handler
of that frame does not clear, outlives it. The pool's timers leave a consumed
or closed connection alone as long as no connection is accepted twice and none
is opened while its acknowledgement is still awaited.
-/

namespace OpticsAgent.Tunnel

open OpticsAgent.Ecma OpticsAgent.Node OpticsAgent.Utility OpticsAgent.Lib

namespace State

/-! ## The invariant -/

/-- In its line phase. -/
structure Reading (s : State) (c : ℕ) : Prop where
  created : c < s.created
  reading : (s.connections c).detached = false
  alive : (s.connections c).closed = false

/-- The connections a timer may be live for. -/
def Allows (s : State) : Callback → Prop
  | .connectDeadline c => s.Reading c ∧ (s.connections c).connected = false
  | .ackDeadline c => s.Reading c ∧ (s.connections c).connected = true
  | .heartbeat c => s.Reading c
  | .pongDeadline c => s.Reading c
  | .refill => True

/-- No timer has lost its variable, and every live one is allowed. -/
structure Tended (s : State) : Prop where
  sound : s.timers.Sound
  owned : ∀ callback, s.timers.Owned callback
  allowed : ∀ callback, s.timers.Live callback → s.Allows callback
  consumed : ∀ c, (s.connections c).detached = true → (s.connections c).connected = true

theorem Allows.reading {s : State} {callback : Callback} {c : ℕ} (h : s.Allows callback)
    (howner : callback.owner = some c) : s.Reading c := by
  cases callback with
  | connectDeadline d =>
      obtain rfl := Option.some.inj howner
      exact h.1
  | ackDeadline d =>
      obtain rfl := Option.some.inj howner
      exact h.1
  | heartbeat d =>
      obtain rfl := Option.some.inj howner
      exact h
  | pongDeadline d =>
      obtain rfl := Option.some.inj howner
      exact h
  | refill => cases howner

/-- The phase of every connection is the same, and none is forgotten. -/
structure SamePhases (s s' : State) : Prop where
  created : s.created ≤ s'.created
  detached : ∀ c < s.created, (s'.connections c).detached = (s.connections c).detached
  closed : ∀ c < s.created, (s'.connections c).closed = (s.connections c).closed
  connected : ∀ c < s.created, (s'.connections c).connected = (s.connections c).connected

theorem Reading.of_samePhases {s s' : State} {c : ℕ} (hc : s.Reading c) (h : SamePhases s s') :
    s'.Reading c :=
  ⟨lt_of_lt_of_le hc.created h.created, (h.detached c hc.created).trans hc.reading,
    (h.closed c hc.created).trans hc.alive⟩

theorem Allows.of_samePhases {s s' : State} {callback : Callback} (hs : s.Allows callback)
    (h : SamePhases s s') : s'.Allows callback := by
  cases callback with
  | connectDeadline c =>
      exact ⟨hs.1.of_samePhases h, (h.connected c hs.1.created).trans hs.2⟩
  | ackDeadline c => exact ⟨hs.1.of_samePhases h, (h.connected c hs.1.created).trans hs.2⟩
  | heartbeat c => exact Reading.of_samePhases hs h
  | pongDeadline c => exact Reading.of_samePhases hs h
  | refill => trivial

theorem samePhases_of_connections {s s' : State} (hcreated : s'.created = s.created)
    (hconnections : s'.connections = s.connections) : SamePhases s s' :=
  ⟨hcreated.ge, fun c _ => by rw [hconnections], fun c _ => by rw [hconnections],
    fun c _ => by rw [hconnections]⟩

/-! ## Primitives -/

theorem Tended.of_connections {s s' : State} (hs : s.Tended) (hcreated : s'.created = s.created)
    (hconnections : s'.connections = s.connections) (htimers : s'.timers = s.timers) :
    s'.Tended := by
  refine ⟨htimers ▸ hs.sound, htimers ▸ hs.owned, ?_, hconnections ▸ hs.consumed⟩
  intro callback hlive
  rw [htimers] at hlive
  exact (hs.allowed callback hlive).of_samePhases (samePhases_of_connections hcreated hconnections)

theorem Reading.update_of_ne {s : State} {c d : ℕ} (hd : s.Reading d) (hne : d ≠ c)
    (f : Connection → Connection) : (s.updateConnection c f).Reading d := by
  have hsame := connections_updateConnection_of_ne s c d f hne
  exact ⟨hd.created, hsame ▸ hd.reading, hsame ▸ hd.alive⟩

theorem Allows.update_of_ne {s : State} {callback : Callback} (h : s.Allows callback) {c : ℕ}
    (hne : callback.owner ≠ some c) (f : Connection → Connection) :
    (s.updateConnection c f).Allows callback := by
  have hother {d : ℕ} (howner : callback.owner = some d) : d ≠ c := fun heq =>
    hne (heq ▸ howner)
  cases callback with
  | connectDeadline d =>
      have hd := hother rfl
      exact ⟨h.1.update_of_ne hd f, (connections_updateConnection_of_ne s c d f hd) ▸ h.2⟩
  | ackDeadline d =>
      have hd := hother rfl
      exact ⟨h.1.update_of_ne hd f, (connections_updateConnection_of_ne s c d f hd) ▸ h.2⟩
  | heartbeat d => exact Reading.update_of_ne h (hother rfl) f
  | pongDeadline d => exact Reading.update_of_ne h (hother rfl) f
  | refill => trivial

/-- An assignment to a connection, as far as its own timers allow it. -/
theorem Tended.update {s : State} (hs : s.Tended) (c : ℕ) (f : Connection → Connection)
    (hown : ∀ callback, callback.owner = some c → s.timers.Live callback →
      (s.updateConnection c f).Allows callback)
    (hconsumed : (f (s.connections c)).detached = true →
      (f (s.connections c)).connected = true) : (s.updateConnection c f).Tended := by
  refine ⟨hs.sound, hs.owned, ?_, ?_⟩
  · intro callback hlive
    by_cases howner : callback.owner = some c
    · exact hown callback howner hlive
    · exact (hs.allowed callback hlive).update_of_ne howner f
  · intro d hd
    rcases eq_or_ne d c with rfl | hne
    · rw [connections_updateConnection_self] at hd ⊢
      exact hconsumed hd
    · rw [connections_updateConnection_of_ne s c d f hne] at hd ⊢
      exact hs.consumed d hd

theorem samePhases_updateConnection (s : State) (c : ℕ) (f : Connection → Connection)
    (hdetached : ∀ k, (f k).detached = k.detached) (hclosed : ∀ k, (f k).closed = k.closed)
    (hconnected : ∀ k, (f k).connected = k.connected) :
    SamePhases s (s.updateConnection c f) := by
  constructor
  · exact le_refl _
  · intro d _
    rcases eq_or_ne d c with rfl | hne
    · rw [connections_updateConnection_self, hdetached]
    · rw [connections_updateConnection_of_ne s c d f hne]
  · intro d _
    rcases eq_or_ne d c with rfl | hne
    · rw [connections_updateConnection_self, hclosed]
    · rw [connections_updateConnection_of_ne s c d f hne]
  · intro d _
    rcases eq_or_ne d c with rfl | hne
    · rw [connections_updateConnection_self, hconnected]
    · rw [connections_updateConnection_of_ne s c d f hne]

/-- An assignment that leaves the phase of the connection alone. -/
theorem Tended.touch {s : State} (hs : s.Tended) (c : ℕ) (f : Connection → Connection)
    (hdetached : ∀ k, (f k).detached = k.detached) (hclosed : ∀ k, (f k).closed = k.closed)
    (hconnected : ∀ k, (f k).connected = k.connected) : (s.updateConnection c f).Tended := by
  apply hs.update
  · intro callback howner hlive
    exact (hs.allowed callback hlive).of_samePhases
      (samePhases_updateConnection s c f hdetached hclosed hconnected)
  · intro h
    rw [hconnected]
    rw [hdetached] at h
    exact hs.consumed c h

theorem Tended.startTimer {s : State} (hs : s.Tended) {callback : Callback} {delayMs : ℕ}
    (hfree : ¬ s.timers.Live callback) (hallows : s.Allows callback) :
    (s.startTimer callback delayMs).Tended := by
  refine ⟨hs.sound.start callback delayMs, ?_, ?_, hs.consumed⟩
  · intro other
    exact (hs.owned other).start hfree
  · intro other hlive
    have hphases : SamePhases s (s.startTimer callback delayMs) :=
      samePhases_of_connections rfl rfl
    rcases Timers.live_start.mp hlive with hold | rfl
    · exact (hs.allowed other hold).of_samePhases hphases
    · exact hallows.of_samePhases hphases

theorem Tended.clearTimer {s : State} (hs : s.Tended) (callback : Callback) :
    (s.clearTimer callback).Tended := by
  refine ⟨hs.sound.clear callback, ?_, ?_, hs.consumed⟩
  · intro other
    exact (hs.owned other).clear
  · intro other hlive
    exact (hs.allowed other (Timers.live_of_clear hlive)).of_samePhases
      (samePhases_of_connections rfl rfl)

theorem Tended.forgetTimer {s : State} (hs : s.Tended) {callback : Callback}
    (hdead : ¬ s.timers.Live callback) : (s.forgetTimer callback).Tended := by
  refine ⟨hs.sound.forget callback, ?_, ?_, hs.consumed⟩
  · intro other
    exact (hs.owned other).forget hdead
  · intro other hlive
    exact (hs.allowed other hlive).of_samePhases (samePhases_of_connections rfl rfl)

theorem Tended.expire {s : State} (hs : s.Tended) (id : ℕ) : (s.expire id).Tended := by
  refine ⟨hs.sound.expire id, ?_, ?_, hs.consumed⟩
  · intro other
    exact (hs.owned other).expire
  · intro other hlive
    exact (hs.allowed other (Timers.live_of_expire hlive)).of_samePhases
      (samePhases_of_connections rfl rfl)

theorem Tended.not_live_clearTimer {s : State} (hs : s.Tended) (callback : Callback) :
    ¬ (s.clearTimer callback).timers.Live callback :=
  (hs.owned callback).not_live_clear

theorem Tended.stopHeartbeat {s : State} (hs : s.Tended) (c : ℕ) :
    (s.stopHeartbeat c).Tended ∧ ¬ (s.stopHeartbeat c).timers.Live (.heartbeat c) ∧
      ¬ (s.stopHeartbeat c).timers.Live (.pongDeadline c) := by
  have hfirst := hs.not_live_clearTimer (.heartbeat c)
  have hcleared := (hs.clearTimer (.heartbeat c)).clearTimer (.pongDeadline c)
  have hheartbeat : ¬ ((s.clearTimer (.heartbeat c)).clearTimer (.pongDeadline c)).timers.Live
      (.heartbeat c) := fun h => hfirst (Timers.live_of_clear h)
  have hpong := (hs.clearTimer (.heartbeat c)).not_live_clearTimer (.pongDeadline c)
  exact ⟨(hcleared.forgetTimer hheartbeat).forgetTimer hpong, hheartbeat, hpong⟩

theorem live_of_stopHeartbeat {s : State} {c : ℕ} {callback : Callback}
    (h : (s.stopHeartbeat c).timers.Live callback) : s.timers.Live callback :=
  Timers.live_of_clear (Timers.live_of_clear h)

/-- None of the connection's timers is live. -/
def Quiet (s : State) (c : ℕ) : Prop :=
  ∀ callback, callback.owner = some c → ¬ s.timers.Live callback

theorem quiet_of {s : State} {c : ℕ} (hconnect : ¬ s.timers.Live (.connectDeadline c))
    (hack : ¬ s.timers.Live (.ackDeadline c)) (hheartbeat : ¬ s.timers.Live (.heartbeat c))
    (hpong : ¬ s.timers.Live (.pongDeadline c)) : s.Quiet c := by
  intro callback howner
  cases callback with
  | connectDeadline d =>
      obtain rfl := Option.some.inj howner
      exact hconnect
  | ackDeadline d =>
      obtain rfl := Option.some.inj howner
      exact hack
  | heartbeat d =>
      obtain rfl := Option.some.inj howner
      exact hheartbeat
  | pongDeadline d =>
      obtain rfl := Option.some.inj howner
      exact hpong
  | refill => cases howner

theorem Tended.settle {s : State} (hs : s.Tended) (c : ℕ) : (s.settle c).Tended := by
  unfold State.settle
  split_ifs
  · exact hs
  · exact (hs.touch c (fun k => { k with settled := true }) (fun _ => rfl) (fun _ => rfl)
      (fun _ => rfl)).of_connections rfl rfl rfl

theorem Tended.destroy {s : State} (hs : s.Tended) (c : ℕ) : (s.destroy c).Tended :=
  hs.touch c _ (fun _ => rfl) (fun _ => rfl) (fun _ => rfl)

theorem Tended.markUnhealthy {s : State} (hs : s.Tended) (c : ℕ) : (s.markUnhealthy c).Tended :=
  hs.touch c _ (fun _ => rfl) (fun _ => rfl) (fun _ => rfl)

theorem samePhases_write (s : State) (c : ℕ) (text : JsString) :
    SamePhases s (s.write c text) := by
  apply samePhases_updateConnection
  · intro k
    split_ifs <;> rfl
  · intro k
    split_ifs <;> rfl
  · intro k
    split_ifs <;> rfl

theorem Tended.write {s : State} (hs : s.Tended) (c : ℕ) (text : JsString) :
    (s.write c text).Tended := by
  apply hs.touch
  · intro k
    split_ifs <;> rfl
  · intro k
    split_ifs <;> rfl
  · intro k
    split_ifs <;> rfl

theorem Tended.cancelRefill {s : State} (hs : s.Tended) : s.cancelRefill.Tended :=
  (hs.clearTimer .refill).forgetTimer (hs.not_live_clearTimer .refill)

theorem Tended.scheduleRefill {s : State} (hs : s.Tended) : s.scheduleRefill.Tended := by
  unfold State.scheduleRefill
  split_ifs with hskip
  · exact hs
  · have hunset : s.timers.handles .refill = none := by
      rw [Bool.or_eq_true, not_or, Option.not_isSome_iff_eq_none] at hskip
      exact hskip.2
    have hfree : ¬ s.timers.Live .refill := (hs.owned .refill).not_live_of_unset hunset
    have hcounted : Tended { s with consecutiveFailures := s.consecutiveFailures + 1 } :=
      hs.of_connections rfl rfl rfl
    exact hcounted.startTimer hfree trivial

/-! ## Filling the pool -/

theorem samePhases_netConnect (s : State) : SamePhases s s.netConnect := by
  have hsame (c : ℕ) (hc : c < s.created) : s.netConnect.connections c = s.connections c :=
    Function.update_of_ne (Nat.ne_of_lt hc) _ _
  refine ⟨Nat.le_succ _, fun c hc => ?_, fun c hc => ?_, fun c hc => ?_⟩
  · rw [hsame c hc]
  · rw [hsame c hc]
  · rw [hsame c hc]

/-- A new connection has no timer before its connect deadline. -/
theorem Tended.preconnect {s : State} (hs : s.Tended) : s.preconnect.Tended := by
  have hnew : s.netConnect.Tended := by
    refine ⟨hs.sound, hs.owned, ?_, ?_⟩
    · intro callback hlive
      exact (hs.allowed callback hlive).of_samePhases (samePhases_netConnect s)
    · intro c hc
      rcases eq_or_ne c s.created with rfl | hne
      · have hfresh : s.netConnect.connections s.created = {} := Function.update_self _ _ _
        rw [hfresh] at hc
        cases hc
      · have hsame : s.netConnect.connections c = s.connections c :=
          Function.update_of_ne hne _ _
        rw [hsame] at hc ⊢
        exact hs.consumed c hc
  apply hnew.startTimer
  · intro hlive
    exact lt_irrefl _ (hs.allowed _ hlive).1.created
  · have hfresh : s.netConnect.connections s.created = {} := Function.update_self _ _ _
    refine ⟨⟨Nat.lt_succ_self _, ?_, ?_⟩, ?_⟩
    · rw [hfresh]
    · rw [hfresh]
    · rw [hfresh]

theorem Tended.formPreconnectPool {s : State} (hs : s.Tended) : s.formPreconnectPool.Tended :=
  formPreconnectPool_induction (fun _ ht _ => ht.preconnect) hs

/-! ## Frames -/

/-- Between two frames of one chunk. -/
structure Served (s : State) (c : ℕ) : Prop where
  tended : s.Tended
  reading : s.Reading c
  connected : (s.connections c).connected = true

theorem Served.formPreconnectPool {s : State} {c : ℕ} (hs : s.Served c) :
    s.formPreconnectPool.Served c := by
  apply formPreconnectPool_induction (P := fun t => t.Served c) _ hs
  intro t ht _
  have hsame := connections_preconnect_of_lt ht.reading.created
  refine ⟨ht.tended.preconnect, ⟨Nat.lt_succ_of_lt ht.reading.created, ?_, ?_⟩, ?_⟩
  · exact hsame ▸ ht.reading.reading
  · exact hsame ▸ ht.reading.alive
  · exact hsame ▸ ht.connected

theorem Served.of_samePhases {s s' : State} {c : ℕ} (hs : s.Served c) (hs' : s'.Tended)
    (h : SamePhases s s') : s'.Served c :=
  ⟨hs', hs.reading.of_samePhases h, (h.connected c hs.reading.created).trans hs.connected⟩

/-- What a frame must find for the timers to be cleared in time: no heartbeat
before an acceptance, no awaited acknowledgement before an OPEN line. -/
def OrderlyFrame (c : ℕ) (s : State) (frame : Frame) : Prop :=
  (frame.verb = js "PRE:OK" → ¬ s.timers.Live (.heartbeat c)) ∧
    (frame.verb = js "OPEN" → ¬ s.timers.Live (.ackDeadline c))

instance (c : ℕ) (s : State) (frame : Frame) : Decidable (OrderlyFrame c s frame) :=
  inferInstanceAs (Decidable (_ ∧ _))

theorem Served.clearTimer {s : State} {c : ℕ} (hs : s.Served c) (callback : Callback) :
    (s.clearTimer callback).Served c :=
  hs.of_samePhases (hs.tended.clearTimer callback) (samePhases_of_connections rfl rfl)

theorem samePhases_settle (s : State) (c : ℕ) : SamePhases s (s.settle c) := by
  unfold State.settle
  split_ifs
  · exact samePhases_of_connections rfl rfl
  · have h := samePhases_updateConnection s c (fun k => { k with settled := true })
      (fun _ => rfl) (fun _ => rfl) (fun _ => rfl)
    exact ⟨h.created, h.detached, h.closed, h.connected⟩

theorem Served.settle {s : State} {c : ℕ} (hs : s.Served c) : (s.settle c).Served c :=
  hs.of_samePhases (hs.tended.settle c) (samePhases_settle s c)

theorem timers_settle (s : State) (c : ℕ) : (s.settle c).timers = s.timers := by
  unfold State.settle
  split_ifs <;> rfl

theorem Served.onPreOk {s : State} {c : ℕ} (hs : s.Served c)
    (hfree : ¬ s.timers.Live (.heartbeat c)) : (s.onPreOk c).Served c := by
  have hsettled := (hs.clearTimer (.ackDeadline c)).settle
  let pooled : State := { (s.clearTimer (.ackDeadline c)).settle c with
    pool := insert c ((s.clearTimer (.ackDeadline c)).settle c).pool }
  have hpooled : pooled.Served c :=
    hsettled.of_samePhases (hsettled.tended.of_connections rfl rfl rfl)
      (samePhases_of_connections rfl rfl)
  have hstill : ¬ pooled.timers.Live (.heartbeat c) := by
    intro hlive
    change ((s.clearTimer (.ackDeadline c)).settle c).timers.Live (.heartbeat c) at hlive
    rw [timers_settle] at hlive
    exact hfree (Timers.live_of_clear hlive)
  have hbeating : (pooled.startHeartbeat c).Served c :=
    hpooled.of_samePhases (hpooled.tended.startTimer hstill hpooled.reading)
      (samePhases_of_connections rfl rfl)
  have hformed := hbeating.formPreconnectPool
  unfold State.onPreOk
  dsimp only
  split_ifs
  · exact hformed.of_samePhases (hformed.tended.of_connections rfl rfl rfl)
      (samePhases_of_connections rfl rfl)
  · exact hformed

theorem Served.onPreErr {s : State} {c : ℕ} (hs : s.Served c) (args : List JsString) :
    (s.onPreErr c args).Served c := by
  have hreject {t : State} (ht : t.Served c) : ((t.settle c).destroy c).Served c :=
    ht.settle.of_samePhases (ht.settle.tended.destroy c)
      (samePhases_updateConnection _ c _ (fun _ => rfl) (fun _ => rfl) (fun _ => rfl))
  have hcleared := hs.clearTimer (.ackDeadline c)
  have hsuspended : Served { s.clearTimer (.ackDeadline c) with suspended := true } c :=
    hcleared.of_samePhases (hcleared.tended.of_connections rfl rfl rfl)
      (samePhases_of_connections rfl rfl)
  unfold State.onPreErr
  apply hreject
  split_ifs
  · exact hsuspended.of_samePhases hsuspended.tended.cancelRefill
      (samePhases_of_connections rfl rfl)
  · exact hcleared

theorem Tended.onPong {s : State} (hs : s.Tended) (c : ℕ) : (s.onPong c).Tended :=
  (hs.clearTimer (.pongDeadline c)).forgetTimer (hs.not_live_clearTimer (.pongDeadline c))

/-- A connection without live timers leaves its line phase. -/
theorem Tended.retire {s : State} (hs : s.Tended) {c : ℕ} (hquiet : s.Quiet c)
    (f : Connection → Connection)
    (hconsumed : (f (s.connections c)).detached = true →
      (f (s.connections c)).connected = true) : (s.updateConnection c f).Tended := by
  apply hs.update c f _ hconsumed
  intro callback howner hlive
  exact absurd hlive (hquiet callback howner)

/-- The OPEN line finds the connect deadline cleared since the handshake. -/
theorem Served.onOpen {s : State} {c : ℕ} (hs : s.Served c)
    (hacknowledged : ¬ s.timers.Live (.ackDeadline c)) (args : List JsString)
    (rest : List Byte) : (s.onOpen c args rest).Tended := by
  obtain ⟨hstopped, hheartbeat, hpong⟩ := hs.tended.stopHeartbeat c
  have hconnect : ¬ s.timers.Live (.connectDeadline c) := by
    intro hlive
    have hpending := (hs.tended.allowed _ hlive).2
    rw [hs.connected] at hpending
    cases hpending
  have hquiet : (s.stopHeartbeat c).Quiet c := quiet_of
    (fun h => hconnect (live_of_stopHeartbeat h)) (fun h => hacknowledged (live_of_stopHeartbeat h))
    hheartbeat hpong
  have hdetached := hstopped.retire hquiet (fun k => { k with detached := true })
    (fun _ => hs.connected)
  let consumed : State := { (s.stopHeartbeat c).updateConnection c
    (fun k => { k with detached := true }) with pool := s.pool.erase c }
  have hconsumed : consumed.Tended := hdetached.of_connections rfl rfl rfl
  change (consumed.formPreconnectPool.pipeToLocalService c args rest).Tended
  unfold pipeToLocalService
  split
  · exact hconsumed.formPreconnectPool.destroy c
  · exact hconsumed.formPreconnectPool.touch c _ (fun _ => rfl) (fun _ => rfl) (fun _ => rfl)

theorem Served.onFrame {s : State} {c : ℕ} (hs : s.Served c) {frame : Frame} (rest : List Byte)
    (hok : OrderlyFrame c s frame) :
    ((onFrame c frame rest s).2 = false → (onFrame c frame rest s).1.Served c) ∧
      ((onFrame c frame rest s).2 = true → (onFrame c frame rest s).1.Tended) := by
  unfold State.onFrame
  split_ifs with hok' herr hpong hopen
  · exact ⟨fun _ => hs.onPreOk (hok.1 hok'), fun h => by cases h⟩
  · exact ⟨fun _ => hs.onPreErr frame.args, fun h => by cases h⟩
  · refine ⟨fun _ => ?_, fun h => by cases h⟩
    exact hs.of_samePhases (hs.tended.onPong c) (samePhases_of_connections rfl rfl)
  · exact ⟨(fun h => by cases h), fun _ => hs.onOpen (hok.2 hopen) frame.args rest⟩
  · exact ⟨fun _ => hs, fun h => by cases h⟩

/-! ## Callbacks -/

/-- The frames of a chunk are orderly, each in the state it is handled in. -/
def Orderly (s : State) : Event → Prop
  | .data c chunk =>
      DrainAll (onFrame c) (OrderlyFrame c) ((s.connections c).buffer ++ chunk).length
        ((s.connections c).buffer ++ chunk) s
  | _ => True

instance (s : State) : ∀ event, Decidable (s.Orderly event)
  | .data c _ => inferInstanceAs (Decidable (DrainAll (onFrame c) (OrderlyFrame c) _ _ s))
  | .init _ _ => isTrue trivial
  | .connect _ _ _ _ => isTrue trivial
  | .error _ => isTrue trivial
  | .close _ => isTrue trivial
  | .timer _ => isTrue trivial

theorem Tended.onSocketData {s : State} (hs : s.Tended) {c : ℕ} {chunk : List Byte}
    (hreading : s.Reading c) (hconnected : (s.connections c).connected = true)
    (hok : s.Orderly (.data c chunk)) : (s.onSocketData c chunk).Tended := by
  have hworld : (onData (State.onFrame c) (s.connections c).buffer chunk s).1.Tended := by
    apply onData_invariant (fun t => t.Served c) Tended _ _ _ hok ⟨hs, hreading, hconnected⟩
    · intro frame rest t ht hframe
      exact (ht.onFrame rest hframe).1
    · intro frame rest t ht hframe
      exact (ht.onFrame rest hframe).2
    · intro t ht
      exact ht.tended
  exact hworld.touch c (fun k => { k with buffer := _ }) (fun _ => rfl) (fun _ => rfl)
    (fun _ => rfl)

theorem Tended.onConnect {s : State} (hs : s.Tended) {c : ℕ} (hreading : s.Reading c)
    (hfirst : (s.connections c).connected = false) (secret : Option JsString)
    (timestamp : Number) (nonce : JsString) :
    (s.onConnect c secret timestamp nonce).Tended := by
  have hdead := hs.not_live_clearTimer (.connectDeadline c)
  have hack : ¬ s.timers.Live (.ackDeadline c) := by
    intro hlive
    have hlater := (hs.allowed _ hlive).2
    rw [hfirst] at hlater
    cases hlater
  let cleared := (s.clearTimer (.connectDeadline c)).forgetTimer (.connectDeadline c)
  have hcleared : cleared.Tended := (hs.clearTimer (.connectDeadline c)).forgetTimer hdead
  let connected := cleared.updateConnection c fun k => { k with connected := true }
  have hnow : connected.Reading c ∧ (connected.connections c).connected = true := by
    have hself : connected.connections c = { s.connections c with connected := true } :=
      connections_updateConnection_self cleared c _
    refine ⟨⟨hreading.created, ?_, ?_⟩, ?_⟩
    · rw [hself]
      exact hreading.reading
    · rw [hself]
      exact hreading.alive
    · rw [hself]
  have hconnected : connected.Tended := by
    apply hcleared.update
    · intro callback howner hlive
      cases callback with
      | connectDeadline d =>
          obtain rfl := Option.some.inj howner
          exact absurd hlive hdead
      | ackDeadline d =>
          obtain rfl := Option.some.inj howner
          exact hnow
      | heartbeat d =>
          obtain rfl := Option.some.inj howner
          exact hnow.1
      | pongDeadline d =>
          obtain rfl := Option.some.inj howner
          exact hnow.1
      | refill => cases howner
    · intro _
      rfl
  unfold State.onConnect
  cases secret with
  | none => exact hconnected
  | some key =>
      apply (hconnected.write c _).startTimer
      · intro hlive
        exact hack (Timers.live_of_clear hlive)
      · exact Allows.of_samePhases hnow (samePhases_write connected c _)

theorem Tended.onClose {s : State} (hs : s.Tended) (c : ℕ) : (s.onClose c).Tended := by
  have hcleared := (hs.clearTimer (.connectDeadline c)).clearTimer (.ackDeadline c)
  have hconnect : ¬ ((s.clearTimer (.connectDeadline c)).clearTimer (.ackDeadline c)).timers.Live
      (.connectDeadline c) := fun h =>
    hs.not_live_clearTimer (.connectDeadline c) (Timers.live_of_clear h)
  have hack := (hs.clearTimer (.connectDeadline c)).not_live_clearTimer (.ackDeadline c)
  obtain ⟨hstopped, hheartbeat, hpong⟩ := hcleared.stopHeartbeat c
  have hquiet := quiet_of (fun h => hconnect (live_of_stopHeartbeat h))
    (fun h => hack (live_of_stopHeartbeat h)) hheartbeat hpong
  have hclosed := hstopped.retire hquiet (fun k => { k with closed := true }) (hs.consumed c)
  let removed : State := { ((((s.updateConnection c fun k => { k with closed := true }).clearTimer
    (.connectDeadline c)).clearTimer (.ackDeadline c)).stopHeartbeat c) with
    pool := s.pool.erase c }
  have hremoved : removed.Tended := hclosed.of_connections rfl rfl rfl
  unfold State.onClose
  dsimp only
  split_ifs
  · exact (hremoved.settle c).scheduleRefill
  · exact hremoved.scheduleRefill
  · exact hremoved.formPreconnectPool
  · exact hremoved

theorem Tended.initPreconnectPool {s : State} (hs : s.Tended)
    (agentUuid secret : Option JsString) : (s.initPreconnectPool agentUuid secret).Tended := by
  unfold State.initPreconnectPool
  cases truthy agentUuid with
  | none => exact hs
  | some uuid =>
      have hnamed : Tended { s with
          agentUuid := some uuid, suspended := false, consecutiveFailures := 0 } :=
        hs.of_connections rfl rfl rfl
      dsimp only
      split_ifs
      · exact hnamed.cancelRefill.formPreconnectPool
      · exact hs.of_connections rfl rfl rfl

theorem Tended.onTimer {s : State} (hs : s.Tended) {callback : Callback}
    (hallows : s.Allows callback)
    (hspent : repeats callback = false → ¬ s.timers.Live callback) :
    (s.onTimer callback).Tended := by
  cases callback with
  | connectDeadline c => exact ((hs.forgetTimer (hspent rfl)).markUnhealthy c).destroy c
  | ackDeadline c => exact hs.destroy c
  | heartbeat c =>
      unfold State.onTimer
      dsimp only
      split_ifs with hawaited
      · exact hs
      · rw [Option.not_isSome_iff_eq_none] at hawaited
        have hfree := (hs.owned (.pongDeadline c)).not_live_of_unset hawaited
        exact (hs.write c _).startTimer hfree (hallows.of_samePhases (samePhases_write s c _))
  | pongDeadline c => exact (hs.markUnhealthy c).destroy c
  | refill => exact (hs.forgetTimer (hspent rfl)).formPreconnectPool

theorem Tended.fire {s : State} (hs : s.Tended) {t : Timer Callback} (ht : t ∈ s.timers.live) :
    (s.fire t).Tended := by
  have hallows := hs.allowed t.key ⟨t, ht, rfl⟩
  unfold State.fire
  split_ifs with hrepeats
  · apply hs.onTimer hallows
    intro honce
    rw [honce] at hrepeats
    cases hrepeats
  · apply (hs.expire t.id).onTimer
    · exact hallows.of_samePhases (samePhases_of_connections rfl rfl)
    · exact fun _ => (hs.owned t.key).not_live_expire ht

theorem tended_start : start.Tended := by
  refine ⟨⟨?_, List.nodup_nil, ?_, ?_⟩, ?_, ?_, ?_⟩
  · intro t ht
    cases ht
  · intro callback h hset
    cases hset
  · intro callback h hset
    cases hset
  · intro callback t ht
    cases ht
  · rintro callback ⟨t, ht, -⟩
    cases ht
  · intro c hc
    cases hc

theorem tended_step {s s' : State} {event : Event} (hs : s.Tended) (hok : s.Orderly event)
    (hstep : step s event = some s') : s'.Tended := by
  cases transition_of_step hstep with
  | init agentUuid secret => exact hs.initPreconnectPool agentUuid secret
  | connect c secret timestamp nonce hcreated hfirst halive =>
      have hreading : (s.connections c).detached = false := by
        rw [← Bool.not_eq_true]
        intro hdetached
        rw [hs.consumed c hdetached] at hfirst
        cases hfirst
      exact hs.onConnect ⟨hcreated, hreading, halive⟩ hfirst secret timestamp nonce
  | data c chunk hcreated hconnected _ halive hreading =>
      exact hs.onSocketData ⟨hcreated, hreading, halive⟩ hconnected hok
  | error c => exact hs.markUnhealthy c
  | close c _ _ => exact hs.onClose c
  | timer t hlive => exact hs.fire hlive

theorem tended_run {s : State} {events : List Event} (hok : service.Along Orderly start events)
    (hrun : service.run start events = some s) : s.Tended := by
  refine Machine.Along.run_invariant (M := service) ?_ hok tended_start hrun
  intro s event s' hs hevent hstep
  exact tended_step hs hevent hstep

end State

/-- Along a run whose frames are orderly, no timer of a consumed or closed
connection is live, and no connection has two heartbeats. -/
theorem consumed_untouched (s : State) (events : List Event)
    (hrun : service.run start events = some s)
    (horderly : service.Along State.Orderly start events) :
    (∀ c, (s.connections c).detached = true ∨ (s.connections c).closed = true →
      ∀ callback, callback.owner = some c → ¬ s.timers.Live callback) ∧
    (∀ c, (s.timers.live.filter fun t => t.key = .heartbeat c).length ≤ 1) := by
  have hs := State.tended_run horderly hrun
  constructor
  · intro c hgone callback howner hlive
    have hreading := (hs.allowed callback hlive).reading howner
    rcases hgone with hdetached | hclosed
    · rw [hreading.reading] at hdetached
      cases hdetached
    · rw [hreading.alive] at hclosed
      cases hclosed
  · intro c
    exact (hs.owned (.heartbeat c)).length_le_one hs.sound

/-- A connection is accepted, answers a heartbeat and is opened. -/
theorem consumed_untouched_example :
    let events := firstContact ++ [sends 0 "PRE:OK\n", .timer 2, sends 0 "PONG\nOPEN 8080\n"]
    ∃ s, service.run start events = some s ∧ (s.connections 0).detached = true ∧
      ∀ callback, callback.owner = some 0 → ¬ s.timers.Live callback := by
  intro events
  have hdetached : (service.run start events).map (fun s => (s.connections 0).detached) =
      some true := by decide +kernel
  have horderly : service.Along State.Orderly start events := by decide +kernel
  obtain ⟨s, hrun, hs⟩ := Option.map_eq_some_iff.mp hdetached
  exact ⟨s, hrun, hs, (consumed_untouched s events hrun horderly).1 0 (Or.inl hs)⟩

/-- Accepted twice, the connection keeps its first heartbeat through the OPEN
line. -/
theorem consumed_untouched_fails :
    ¬ ∀ (s : State) (events : List Event), service.run start events = some s →
      (∀ c, (s.connections c).detached = true ∨ (s.connections c).closed = true →
        ∀ callback, callback.owner = some c → ¬ s.timers.Live callback) ∧
      (∀ c, (s.timers.live.filter fun t => t.key = .heartbeat c).length ≤ 1) := by
  intro hclaim
  have hbeats : (service.run start (firstContact ++
      [sends 0 "PRE:OK\nPRE:OK\n", sends 0 "OPEN 8080\n"])).map (fun s =>
        ((s.connections 0).detached, decide (s.timers.Live (.heartbeat 0)))) =
      some (true, true) := by decide +kernel
  obtain ⟨s, hrun, hs⟩ := Option.map_eq_some_iff.mp hbeats
  obtain ⟨hdetached, hlive⟩ := Prod.mk.inj hs
  exact (hclaim s _ hrun).1 0 (Or.inl hdetached) (.heartbeat 0) rfl (of_decide_eq_true hlive)

end OpticsAgent.Tunnel
