import Mathlib
import OpticsAgent.Terminal.SshTerminalService

/-!
Sessions under one id, one after another. A listener of a client looks the
session up by its id when the event comes, so a late event of a finished session
reaches the session that was opened under the same id since: it is finished, or
takes the stream of the earlier client.
-/

namespace OpticsAgent.Terminal

open OpticsAgent.Ecma OpticsAgent.Lib OpticsAgent.Node

/-- A call that finishes the session with the id. -/
def TerminalEvent.Closes (sessionId : JsString) : TerminalEvent → Prop
  | .close closed => closed = sessionId
  | .destroy => True
  | _ => False

/-- An event of the client or of its stream. -/
def TerminalEvent.Of (client : ℕ) : TerminalEvent → Prop
  | .client sender _ => sender = client
  | _ => False

/-- The listener of the event gets the session from the map. -/
def ClientEvent.LooksUp : ClientEvent → Prop
  | .ready | .streamData _ => False
  | .shell _ | .error _ | .close | .streamClose => True

instance decidableLooksUp : ∀ event : ClientEvent, Decidable event.LooksUp
  | .ready | .streamData _ => isFalse id
  | .shell _ | .error _ | .close | .streamClose => isTrue trivial

def TerminalEffect.isOnClose (n : ℕ) : TerminalEffect → Bool
  | .onClose callbacks _ => callbacks == n
  | _ => false

namespace TerminalState

/-- How often the `onClose` of the call of `open` was called. -/
def closed (s : TerminalState) (n : ℕ) : ℕ :=
  s.effects.countP (TerminalEffect.isOnClose n)

/-- A session finishes only by a call on its id or by an event of its own
client, a session has no stream but its own client's, and no `onClose` has been
called twice. -/
structure Isolated (s : TerminalState) (e : TerminalEvent) (s' : TerminalState) : Prop where
  finished : ∀ sessionId session, s.sessions.get sessionId = some session →
    (∀ later, s'.sessions.get sessionId = some later → later.callbacks ≠ session.callbacks) →
      e.Closes sessionId ∨ e.Of session.client
  stream : ∀ sessionId session, s'.sessions.get sessionId = some session →
    session.stream = none ∨ session.stream = some session.client
  once : ∀ n, s'.closed n ≤ 1

/-- Where the listener of an event looks the session up and finds one, it is the
client's own. -/
def InSession (s : TerminalState) : TerminalEvent → Prop
  | .client client event => event.LooksUp → ∀ opening ∈ s.openings[client]?,
      event.listener ∈ opening.listening →
        ∀ session ∈ s.sessions.get opening.sessionId, session.client = client
  | _ => True

instance decidableInSession (s : TerminalState) : ∀ e, Decidable (s.InSession e)
  | .client client event =>
      inferInstanceAs (Decidable (event.LooksUp → ∀ opening ∈ s.openings[client]?,
        event.listener ∈ opening.listening →
          ∀ session ∈ s.sessions.get opening.sessionId, session.client = client))
  | .open .. | .write .. | .resize .. | .close _ | .destroy => isTrue trivial

/-! ## The invariant -/

/-- Every session belongs to the call that opened it, whose `onClose` is still
to come. -/
structure Inv (s : TerminalState) : Prop where
  client : ∀ sessionId session, s.sessions.get sessionId = some session →
    session.client = session.callbacks
  opened : ∀ sessionId session, s.sessions.get sessionId = some session →
    ∃ opening, s.openings[session.callbacks]? = some opening ∧ opening.sessionId = sessionId
  stream : ∀ sessionId session, s.sessions.get sessionId = some session →
    session.stream = none ∨ session.stream = some session.client
  waiting : ∀ sessionId session, s.sessions.get sessionId = some session →
    s.closed session.callbacks = 0
  once : ∀ n, s.closed n ≤ 1
  unborn : ∀ n, s.openings.length ≤ n → s.closed n = 0

variable {s : TerminalState}

theorem closed_act (effects : List TerminalEffect) (n : ℕ) :
    (s.act effects).closed n = s.closed n + effects.countP (TerminalEffect.isOnClose n) := by
  rw [closed, act, List.countP_append, closed]

theorem closed_act_of_quiet {effects : List TerminalEffect}
    (h : ∀ n, effects.countP (TerminalEffect.isOnClose n) = 0) (n : ℕ) :
    (s.act effects).closed n = s.closed n := by
  rw [closed_act, h, Nat.add_zero]

/-- Sessions of two ids have callbacks of their own. -/
theorem Inv.id_unique (hs : Inv s) {a b : JsString} {x y : TerminalSession}
    (hx : s.sessions.get a = some x) (hy : s.sessions.get b = some y)
    (h : x.callbacks = y.callbacks) : a = b := by
  obtain ⟨opening, hopening, rfl⟩ := hs.opened a x hx
  obtain ⟨opening', hopening', rfl⟩ := hs.opened b y hy
  rw [h, hopening'] at hopening
  rw [Option.some.inj hopening]

theorem Inv.lt_length (hs : Inv s) {a : JsString} {x : TerminalSession}
    (hx : s.sessions.get a = some x) : x.callbacks < s.openings.length := by
  obtain ⟨opening, hopening, -⟩ := hs.opened a x hx
  exact (List.getElem?_eq_some_iff.mp hopening).1

/-- Effects without an `onClose` keep the invariant. -/
theorem Inv.act (hs : Inv s) {effects : List TerminalEffect}
    (h : ∀ n, effects.countP (TerminalEffect.isOnClose n) = 0) : Inv (s.act effects) where
  client := hs.client
  opened := hs.opened
  stream := hs.stream
  waiting sessionId session hget := by
    rw [closed_act_of_quiet h]
    exact hs.waiting sessionId session hget
  once n := by
    rw [closed_act_of_quiet h]
    exact hs.once n
  unborn n hn := by
    rw [closed_act_of_quiet h]
    exact hs.unborn n hn

/-- Changes of what a client listens to keep the invariant. -/
theorem Inv.register (hs : Inv s) {c : ℕ} {opening opening' : Opening}
    (hopening : s.openings[c]? = some opening) (h : opening'.sessionId = opening.sessionId) :
    Inv (s.register c opening') where
  client := hs.client
  opened sessionId session hget := by
    obtain ⟨old, hold, hid⟩ := hs.opened sessionId session hget
    rw [TerminalState.register, List.getElem?_set]
    by_cases hc : c = session.callbacks
    · subst hc
      rw [hopening] at hold
      obtain rfl := Option.some.inj hold
      rw [if_pos rfl, if_pos (hs.lt_length hget)]
      exact ⟨opening', rfl, h.trans hid⟩
    · rw [if_neg hc]
      exact ⟨old, hold, hid⟩
  stream := hs.stream
  waiting := hs.waiting
  once := hs.once
  unborn n hn := hs.unborn n (by rwa [TerminalState.register, List.length_set] at hn)

theorem get_setSession {sessionId other : JsString} {session later : TerminalSession}
    (h : (s.setSession sessionId session).sessions.get other = some later) :
    (sessionId = other ∧ later = session) ∨ s.sessions.get other = some later := by
  rw [setSession, InsertionMap.get_set] at h
  split_ifs at h with hid
  · exact .inl ⟨hid, (Option.some.inj h).symm⟩
  · exact .inr h

/-- A session that takes its own client's stream keeps the invariant. -/
theorem Inv.attach (hs : Inv s) {sessionId : JsString} {session : TerminalSession} {c : ℕ}
    (hget : s.sessions.get sessionId = some session) (hc : session.client = c) :
    Inv (s.setSession sessionId { session with stream := some c }) := by
  constructor
  case client =>
    intro other later hlater
    obtain ⟨rfl, rfl⟩ | hold := get_setSession hlater
    · exact hs.client sessionId session hget
    · exact hs.client other later hold
  case opened =>
    intro other later hlater
    obtain ⟨rfl, rfl⟩ | hold := get_setSession hlater
    · exact hs.opened sessionId session hget
    · exact hs.opened other later hold
  case stream =>
    intro other later hlater
    obtain ⟨rfl, rfl⟩ | hold := get_setSession hlater
    · exact .inr (congrArg some hc.symm)
    · exact hs.stream other later hold
  case waiting =>
    intro other later hlater
    obtain ⟨rfl, rfl⟩ | hold := get_setSession hlater
    · exact hs.waiting sessionId session hget
    · exact hs.waiting other later hold
  case once => exact hs.once
  case unborn => exact hs.unborn

theorem sessions_finish (sessionId : JsString) (reason : Option JsString) :
    (s.finish sessionId reason).sessions.get =
      fun other => if sessionId = other then none else s.sessions.get other := by
  funext other
  rw [finish]
  cases h : s.sessions.get sessionId with
  | none =>
      by_cases hother : sessionId = other
      · rw [if_pos hother, ← hother]
        exact h
      · rw [if_neg hother]
  | some session => exact InsertionMap.get_erase s.sessions sessionId other

theorem openings_finish (sessionId : JsString) (reason : Option JsString) :
    (s.finish sessionId reason).openings = s.openings := by
  rw [finish]
  cases s.sessions.get sessionId <;> rfl

theorem closed_finish {sessionId : JsString} {session : TerminalSession}
    (hget : s.sessions.get sessionId = some session) (reason : Option JsString) (n : ℕ) :
    (s.finish sessionId reason).closed n =
      s.closed n + if session.callbacks = n then 1 else 0 := by
  simp only [finish, hget]
  rw [closed_act, List.countP_append]
  have hstream : (session.stream.map TerminalEffect.closeStream).toList.countP
      (TerminalEffect.isOnClose n) = 0 := by
    cases session.stream <;> rfl
  rw [hstream, Nat.zero_add]
  by_cases hn : session.callbacks = n
  · simp [closed, deleteSession, TerminalEffect.isOnClose, hn]
  · simp [closed, deleteSession, TerminalEffect.isOnClose, hn]

theorem Inv.finish (hs : Inv s) (sessionId : JsString) (reason : Option JsString) :
    Inv (s.finish sessionId reason) := by
  cases hget : s.sessions.get sessionId with
  | none =>
      rw [TerminalState.finish, hget]
      exact hs
  | some session =>
      have hkey : ∀ other later, (s.finish sessionId reason).sessions.get other = some later →
          sessionId ≠ other ∧ s.sessions.get other = some later := by
        intro other later hlater
        rw [sessions_finish] at hlater
        by_cases hother : sessionId = other
        · simp [hother] at hlater
        · exact ⟨hother, by simpa [hother] using hlater⟩
      constructor
      case client =>
        exact fun other later hlater => hs.client other later (hkey other later hlater).2
      case opened =>
        intro other later hlater
        rw [openings_finish]
        exact hs.opened other later (hkey other later hlater).2
      case stream =>
        exact fun other later hlater => hs.stream other later (hkey other later hlater).2
      case waiting =>
        intro other later hlater
        obtain ⟨hne, hold⟩ := hkey other later hlater
        have hcallbacks : session.callbacks ≠ later.callbacks :=
          fun h => hne (hs.id_unique hget hold h)
        rw [closed_finish hget, if_neg hcallbacks, hs.waiting other later hold]
      case once =>
        intro n
        rw [closed_finish hget]
        by_cases hn : session.callbacks = n
        · rw [if_pos hn, ← hn, hs.waiting sessionId session hget]
        · rw [if_neg hn]
          exact hs.once n
      case unborn =>
        intro n hn
        rw [openings_finish] at hn
        have hlt := hs.lt_length hget
        rw [closed_finish hget, if_neg (by omega), hs.unborn n hn]

theorem Inv.destroy (hs : Inv s) : Inv s.onModuleDestroy := by
  have hall : ∀ (ids : List JsString) (t : TerminalState), Inv t →
      Inv (ids.foldl (fun t sessionId => t.finish sessionId none) t) := by
    intro ids
    induction ids with
    | nil => exact fun _ ht => ht
    | cons sessionId rest ih => exact fun t ht => ih _ (ht.finish sessionId none)
  exact hall _ s hs

theorem openings_refuse (sessionId : JsString) (size : TerminalSize) (reason : JsString) :
    (s.refuse sessionId size reason).openings = s.openings ++ [⟨sessionId, size, []⟩] := rfl

theorem closed_refuse (sessionId : JsString) (size : TerminalSize) (reason : JsString) (n : ℕ) :
    (s.refuse sessionId size reason).closed n =
      s.closed n + if s.openings.length = n then 1 else 0 := by
  rw [refuse, closed_act]
  by_cases hn : s.openings.length = n <;>
    simp [closed, addOpening, TerminalEffect.isOnClose, hn]

theorem Inv.refuse (hs : Inv s) (sessionId : JsString) (size : TerminalSize) (reason : JsString) :
    Inv (s.refuse sessionId size reason) where
  client := hs.client
  opened other session hget := by
    obtain ⟨opening, hopening, hid⟩ := hs.opened other session hget
    refine ⟨opening, ?_, hid⟩
    rw [openings_refuse, List.getElem?_append_left (hs.lt_length hget)]
    exact hopening
  stream := hs.stream
  waiting other session hget := by
    have hlt : session.callbacks < s.openings.length := hs.lt_length hget
    rw [closed_refuse, if_neg hlt.ne', hs.waiting other session hget]
  once n := by
    rw [closed_refuse]
    by_cases hn : s.openings.length = n
    · rw [if_pos hn, hs.unborn n hn.le]
    · rw [if_neg hn]
      exact hs.once n
  unborn n hn := by
    rw [openings_refuse, List.length_append, List.length_singleton] at hn
    rw [closed_refuse, if_neg (by omega), hs.unborn n (by omega)]

/-- A new session has a number that nothing had before. -/
theorem Inv.accept (hs : Inv s) (sessionId : JsString) (size : TerminalSize)
    (listening : List Listener) :
    Inv ((s.setSession sessionId
      { client := s.openings.length, callbacks := s.openings.length }).addOpening sessionId size
        listening) := by
  constructor
  case client =>
    intro other later hlater
    obtain ⟨rfl, rfl⟩ | hold := get_setSession hlater
    · rfl
    · exact hs.client other later hold
  case opened =>
    intro other later hlater
    obtain ⟨rfl, rfl⟩ | hold := get_setSession hlater
    · exact ⟨_, List.getElem?_concat_length, rfl⟩
    · obtain ⟨opening, hopening, hid⟩ := hs.opened other later hold
      exact ⟨opening, (List.getElem?_append_left (hs.lt_length hold)).trans hopening, hid⟩
  case stream =>
    intro other later hlater
    obtain ⟨rfl, rfl⟩ | hold := get_setSession hlater
    · exact .inl rfl
    · exact hs.stream other later hold
  case waiting =>
    intro other later hlater
    obtain ⟨rfl, rfl⟩ | hold := get_setSession hlater
    · exact hs.unborn _ le_rfl
    · exact hs.waiting other later hold
  case once => exact hs.once
  case unborn =>
    intro n hn
    rw [addOpening, setSession, List.length_append] at hn
    exact hs.unborn n (Nat.le_of_add_right_le hn)

theorem Inv.open (hs : Inv s) (sessionId : JsString) (size : TerminalSize) (host : SshHost) :
    Inv (s.open sessionId size host) := by
  rw [TerminalState.open]
  by_cases htaken : (s.sessions.get sessionId).isSome
  · rw [if_pos htaken]
    exact hs.refuse sessionId size _
  · rw [if_neg htaken]
    cases host.createConnectConfig with
    | error message => exact hs.refuse sessionId size message
    | ok config => exact (hs.accept sessionId size _).act fun _ => rfl

/-! ## One event -/

/-- The session with the id is still the same one. -/
def Kept (sessionId : JsString) (session : TerminalSession) (s' : TerminalState) : Prop :=
  ∃ later, s'.sessions.get sessionId = some later ∧ later.callbacks = session.callbacks

theorem kept_finish {sessionId other : JsString} {session : TerminalSession}
    (hget : s.sessions.get sessionId = some session) (hne : other ≠ sessionId)
    (reason : Option JsString) : Kept sessionId session (s.finish other reason) := by
  refine ⟨session, ?_, rfl⟩
  rw [sessions_finish]
  exact (if_neg hne).trans hget

theorem hear_sessionId (opening : Opening) (event : ClientEvent) :
    (opening.hear event).sessionId = opening.sessionId := by
  cases event <;> rfl

variable {c : ℕ} {opening : Opening} {event : ClientEvent}

/-- A listener that looks the session up finds none but its client's own. -/
def Owns (s : TerminalState) (c : ℕ) (opening : Opening) (event : ClientEvent) : Prop :=
  event.LooksUp → ∀ session ∈ s.sessions.get opening.sessionId, session.client = c

theorem Inv.handle (hs : Inv s) (hopening : s.openings[c]? = some opening)
    (h : s.Owns c opening event) : Inv (s.handle c opening event) := by
  cases event with
  | ready =>
      have hlistens : Inv (s.register c (opening.listen [.shell])) := hs.register hopening rfl
      exact hlistens.act fun _ => rfl
  | shell error =>
      cases error with
      | some message => exact hs.finish opening.sessionId (some message)
      | none =>
          rw [TerminalState.handle]
          cases hget : s.sessions.get opening.sessionId with
          | none => exact hs.act fun _ => rfl
          | some session =>
              have hattached := hs.attach hget (h trivial session hget)
              have hlistens : Inv ((s.setSession opening.sessionId
                  { session with stream := some c }).register c
                    (opening.listen [.streamData, .streamClose])) :=
                hattached.register hopening rfl
              exact hlistens.act fun _ => rfl
  | error message => exact hs.finish opening.sessionId (some message)
  | close => exact hs.finish opening.sessionId none
  | streamData data =>
      rw [TerminalState.handle]
      exact hs.act fun _ => rfl
  | streamClose => exact hs.finish opening.sessionId none

theorem kept_or_own_finish {sessionId : JsString} {session : TerminalSession}
    (hget : s.sessions.get sessionId = some session)
    (hown : ∀ session ∈ s.sessions.get opening.sessionId, session.client = c)
    (reason : Option JsString) :
    Kept sessionId session (s.finish opening.sessionId reason) ∨ session.client = c := by
  by_cases hid : opening.sessionId = sessionId
  · exact .inr (hown session (by rw [hid]; exact hget))
  · exact .inl (kept_finish hget hid reason)

/-- A listener leaves every session as it is, but its client's own. -/
theorem kept_or_own_handle {sessionId : JsString} {session : TerminalSession}
    (hget : s.sessions.get sessionId = some session) (h : s.Owns c opening event) :
    Kept sessionId session (s.handle c opening event) ∨ session.client = c := by
  cases event with
  | ready => exact .inl ⟨session, hget, rfl⟩
  | shell error =>
      cases error with
      | some message => exact kept_or_own_finish hget (h trivial) (some message)
      | none =>
          rw [handle]
          cases hfound : s.sessions.get opening.sessionId with
          | none => exact .inl ⟨session, hget, rfl⟩
          | some found =>
              by_cases hid : opening.sessionId = sessionId
              · exact .inr (h trivial session (by rw [hid]; exact hget))
              · refine .inl ⟨session, ?_, rfl⟩
                exact (InsertionMap.get_set ..).trans ((if_neg hid).trans hget)
  | error message => exact kept_or_own_finish hget (h trivial) (some message)
  | close => exact kept_or_own_finish hget (h trivial) none
  | streamData data => exact .inl ⟨session, hget, rfl⟩
  | streamClose => exact kept_or_own_finish hget (h trivial) none

/-- A listener that looks up a session of another client finishes it or gives it
its own client's stream. -/
theorem stolen_of_lookup {session : TerminalSession} (hlooks : event.LooksUp)
    (hget : s.sessions.get opening.sessionId = some session) :
    (s.handle c opening event).sessions.get opening.sessionId = none ∨
      (s.handle c opening event).sessions.get opening.sessionId =
        some { session with stream := some c } := by
  have hfinish (reason : Option JsString) :
      (s.finish opening.sessionId reason).sessions.get opening.sessionId = none := by
    rw [sessions_finish]
    exact if_pos rfl
  cases event with
  | ready => exact hlooks.elim
  | shell error =>
      cases error with
      | some message => exact .inl (hfinish (some message))
      | none =>
          right
          simp only [handle, hget]
          exact (InsertionMap.get_set ..).trans (if_pos rfl)
  | error message => exact .inl (hfinish (some message))
  | close => exact .inl (hfinish none)
  | streamData data => exact hlooks.elim
  | streamClose => exact .inl (hfinish none)

theorem client_step (hopening : s.openings[c]? = some opening)
    (hlistening : event.listener ∈ opening.listening) :
    terminalSystem.step s (.client c event) =
      some ((s.register c (opening.hear event)).handle c (opening.hear event) event) := by
  simp [terminalSystem, terminalStep, hopening, hlistening]

theorem client_step_unheard (hopening : s.openings[c]? = some opening)
    (hlistening : event.listener ∉ opening.listening) :
    terminalSystem.step s (.client c event) = some s := by
  simp [terminalSystem, terminalStep, hopening, hlistening]

theorem sessions_open {sessionId other : JsString} {session : TerminalSession}
    (hget : s.sessions.get other = some session) (size : TerminalSize) (host : SshHost) :
    (s.open sessionId size host).sessions.get other = some session := by
  rw [TerminalState.open]
  by_cases htaken : (s.sessions.get sessionId).isSome
  · rw [if_pos htaken]
    exact hget
  · have hne : sessionId ≠ other := by
      rintro rfl
      exact htaken (by rw [hget]; rfl)
    rw [if_neg htaken]
    cases host.createConnectConfig with
    | error message => exact hget
    | ok config => exact (InsertionMap.get_set ..).trans ((if_neg hne).trans hget)

theorem write_eq_act (s : TerminalState) (sessionId data : JsString) :
    ∃ effects : List TerminalEffect, (∀ n, effects.countP (TerminalEffect.isOnClose n) = 0) ∧
      s.write sessionId data = s.act effects := by
  rw [write]
  cases s.streamOf sessionId with
  | none => exact ⟨[], fun _ => rfl, by rw [act, List.append_nil]⟩
  | some stream => exact ⟨_, fun _ => rfl, rfl⟩

theorem resize_eq_act (s : TerminalState) (sessionId : JsString) (cols rows : Number) :
    ∃ effects : List TerminalEffect, (∀ n, effects.countP (TerminalEffect.isOnClose n) = 0) ∧
      s.resize sessionId cols rows = s.act effects := by
  rw [resize]
  cases s.streamOf sessionId with
  | none => exact ⟨[], fun _ => rfl, by rw [act, List.append_nil]⟩
  | some stream => exact ⟨_, fun _ => rfl, rfl⟩

end TerminalState

open TerminalState

/-- What an event keeps, and which sessions it may end. -/
theorem step_inSession {s s' : TerminalState} {e : TerminalEvent} (hs : Inv s)
    (h : s.InSession e) (hstep : terminalSystem.step s e = some s') :
    Inv s' ∧ ∀ sessionId session, s.sessions.get sessionId = some session →
      Kept sessionId session s' ∨ e.Closes sessionId ∨ e.Of session.client := by
  cases e with
  | «open» sessionId size host =>
      obtain rfl := Option.some.inj hstep
      exact ⟨hs.open sessionId size host,
        fun other session hget => .inl ⟨session, sessions_open hget size host, rfl⟩⟩
  | write sessionId data =>
      obtain rfl := Option.some.inj hstep
      obtain ⟨effects, hquiet, heq⟩ := write_eq_act s sessionId data
      rw [heq]
      exact ⟨hs.act hquiet, fun other session hget => .inl ⟨session, hget, rfl⟩⟩
  | resize sessionId cols rows =>
      obtain rfl := Option.some.inj hstep
      obtain ⟨effects, hquiet, heq⟩ := resize_eq_act s sessionId cols rows
      rw [heq]
      exact ⟨hs.act hquiet, fun other session hget => .inl ⟨session, hget, rfl⟩⟩
  | close sessionId =>
      obtain rfl := Option.some.inj hstep
      refine ⟨hs.finish sessionId none, fun other session hget => ?_⟩
      by_cases hid : sessionId = other
      · exact .inr (.inl hid)
      · exact .inl (kept_finish hget hid none)
  | destroy =>
      obtain rfl := Option.some.inj hstep
      exact ⟨hs.destroy, fun other session hget => .inr (.inl trivial)⟩
  | client c event =>
      cases hopening : s.openings[c]? with
      | none => simp [terminalSystem, terminalStep, hopening] at hstep
      | some opening =>
          by_cases hlistening : event.listener ∈ opening.listening
          · rw [client_step hopening hlistening] at hstep
            obtain rfl := Option.some.inj hstep
            have hheard : Inv (s.register c (opening.hear event)) :=
              hs.register hopening (hear_sessionId opening event)
            have hopening' :
                (s.register c (opening.hear event)).openings[c]? = some (opening.hear event) := by
              rw [register, List.getElem?_set_self (List.getElem?_eq_some_iff.mp hopening).1]
            have howns : (s.register c (opening.hear event)).Owns c (opening.hear event) event := by
              intro hlooks session hget
              rw [hear_sessionId] at hget
              exact h hlooks opening hopening hlistening session hget
            refine ⟨hheard.handle hopening' howns, fun sessionId session hget => ?_⟩
            obtain hkept | hown :=
              kept_or_own_handle (s := s.register c (opening.hear event)) hget howns
            · exact .inl hkept
            · exact .inr (.inr hown.symm)
          · rw [client_step_unheard hopening hlistening] at hstep
            obtain rfl := Option.some.inj hstep
            exact ⟨hs, fun sessionId session hget => .inl ⟨session, hget, rfl⟩⟩

theorem isolated_of_inSession {s s' : TerminalState} {e : TerminalEvent} (hs : Inv s)
    (h : s.InSession e) (hstep : terminalSystem.step s e = some s') : Isolated s e s' := by
  obtain ⟨hs', hcauses⟩ := step_inSession hs h hstep
  refine ⟨fun sessionId session hget hgone => ?_, hs'.stream, hs'.once⟩
  obtain ⟨later, hlater, hsame⟩ | hcause := hcauses sessionId session hget
  · exact absurd hsame (hgone later hlater)
  · exact hcause

/-- The event of a client that finds the session of another one does not leave
that session alone. -/
theorem inSession_of_isolated {s : TerminalState} {e : TerminalEvent}
    (h : ∀ s', terminalSystem.step s e = some s' → Isolated s e s') : s.InSession e := by
  cases e with
  | «open» | write | resize | close | destroy => trivial
  | client c event =>
      intro hlooks opening hopening hlistening session hget
      have hisolated := h _ (client_step hopening hlistening)
      have hget' : (s.register c (opening.hear event)).sessions.get
          (opening.hear event).sessionId = some session := by
        rw [hear_sessionId]
        exact hget
      rw [← hear_sessionId opening event] at hget
      rcases stolen_of_lookup (c := c) hlooks hget' with hgone | htaken
      · obtain hcloses | hof := hisolated.finished _ session hget fun later hlater => by
          rw [hgone] at hlater
          cases hlater
        · exact hcloses.elim
        · exact hof.symm
      · obtain hnone | hown := hisolated.stream _ _ htaken
        · cases hnone
        · exact (Option.some.inj hown).symm

theorem inv_start : Inv {} where
  client _ _ hget := by cases hget
  opened _ _ hget := by cases hget
  stream _ _ hget := by cases hget
  waiting _ _ hget := by cases hget
  once _ := Nat.zero_le 1
  unborn _ _ := rfl

/-- The sessions of a run are isolated exactly when no event reaches a session
of another client under its id. -/
theorem sessions_isolated_iff (events : List TerminalEvent) :
    terminalSystem.Along
        (fun s e => ∀ s', terminalSystem.step s e = some s' → Isolated s e s') {} events ↔
      terminalSystem.Along InSession {} events := by
  apply Iff.symm
  apply Machine.along_congr fun s e s' hs h hstep => (step_inSession hs h hstep).1
  · exact fun s e hs => ⟨fun h s' hstep => isolated_of_inSession hs h hstep,
      inSession_of_isolated⟩
  · exact inv_start

/-! ## A session that ends with the earlier one -/

def terminalHost : SshHost where
  get name :=
    if name = js "HOST_SSH_USERNAME" then some (js "root")
    else if name = js "HOST_SSH_PASSWORD" then some (js "secret")
    else none
  readFileSync _ := throw (js "ENOENT")

def terminalSize : TerminalSize := ⟨.ofInt 80, .ofInt 24⟩

/-- The session is closed and opened again before the `close` of its client comes. -/
def reopenedRun : List TerminalEvent :=
  [.open (js "t1") terminalSize terminalHost, .client 0 .ready, .client 0 (.shell none),
    .close (js "t1"), .open (js "t1") terminalSize terminalHost, .client 0 .close]

/-- The late `close` finishes the second session. -/
theorem sessions_isolated_fails :
    ¬ terminalSystem.Along
      (fun s e => ∀ s', terminalSystem.step s e = some s' → Isolated s e s') {} reopenedRun := by
  intro hisolated
  have hinSession : terminalSystem.Along InSession {} reopenedRun :=
    (Machine.along_congr (fun s e s' hs h hstep => (step_inSession hs h hstep).1)
      (fun s e hs => ⟨fun h s' hstep => isolated_of_inSession hs h hstep,
        inSession_of_isolated⟩) inv_start reopenedRun).mpr hisolated
  have hlate : ¬ terminalSystem.Along InSession {} reopenedRun := by decide +kernel
  exact hlate hinSession

end OpticsAgent.Terminal
