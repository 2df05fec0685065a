import Mathlib
import OpticsAgent.Tunnel.AgentIdentity
import OpticsAgent.Tunnel.CommandScope
import OpticsAgent.Utility.SocketListener

/-!
A process of the agent behind its channel. What the Hub sends reaches a handler
only through the listener, which reads the secret when the delivery comes. So
whatever arrives there, docker is changed for a service only on commands that
were signed.

Two things that use docker are left out: the deployment that
`POST /v1/service/deploy` asks for, which comes over no socket, and the update
`update-agent` asks for, which replaces the agent itself.
-/

namespace OpticsAgent.Tunnel

open OpticsAgent.Ecma OpticsAgent.Lib OpticsAgent.Docker OpticsAgent.Utility

/-- Who the agent is, what its listener remembers, and its work. -/
structure AgentState where
  identity : IdentityState
  replayGuard : ReplayGuard := {}
  system : System := {}

/-- Something is delivered on the socket, a handler of a `register` response goes
on, or something happens around the services. -/
inductive AgentEvent where
  | delivered (d : Delivery)
  | saved (handler : ℕ)
  | resumed (handler : ℕ)
  | happening (h : Happening)

/-- How the handlers read their payloads: the responses with code `ok`, and the
commands of the service system. -/
structure Readers where
  register : JsValue → Option RegisterData
  command : JsValue → Option Command

variable (settings : Settings) (readers : Readers)

namespace AgentState

/-- The handlers of `register` and `command`; the others do not touch the services,
and what `update-agent` does with docker is with the self-update. -/
def invoke (s : AgentState) (d : Delivery) : Option AgentState :=
  if d.event = js "register" then
    match readers.register d.payload with
    | none => some s
    | some data => some { s with identity := s.identity.receive data }
  else if d.event = js "command" then
    match readers.command d.payload with
    | none => some s
    | some command =>
        (s.system.step settings (.command command)).map fun system => { s with system := system }
  else some s

/-- The listener, with the secret the agent has now. -/
def listen (s : AgentState) (d : Delivery) : Bool × ReplayGuard :=
  receive s.replayGuard s.identity.memory.secret d.event d.payload (.finite d.now)

def deliver (s : AgentState) (d : Delivery) : Option AgentState :=
  let heard := { s with replayGuard := (s.listen d).2 }
  if (s.listen d).1 then heard.invoke settings readers d else some heard

/-- No command comes but by a delivery. -/
def step (s : AgentState) : AgentEvent → Option AgentState
  | .delivered d => s.deliver settings readers d
  | .saved handler => (identityStep s.identity (.commit handler)).map fun identity =>
      { s with identity := identity }
  | .resumed handler => (identityStep s.identity (.resume handler)).map fun identity =>
      { s with identity := identity }
  | .happening (.command _) => none
  | .happening h => (s.system.step settings h).map fun system => { s with system := system }

/-- The command that a delivery hands to its handler. -/
def handed (d : Delivery) : Option Happening :=
  if d.event = js "command" then (readers.command d.payload).map .command else none

/-- What the services see of an event. -/
def toServices (s : AgentState) : AgentEvent → Option Happening
  | .delivered d => if (s.listen d).1 then handed readers d else none
  | .happening h => some h
  | _ => none

/-- After `onModuleInit` has loaded the identity. -/
def load (info : InfoKey → Option JsString) : AgentState where
  identity := .load info

end AgentState

def agentProcess : Machine AgentState AgentEvent where
  step := AgentState.step settings readers

/-- What the services see of a run. -/
def happenings : AgentState → List AgentEvent → List Happening
  | _, [] => []
  | s, e :: rest =>
      (s.toServices readers e).toList ++
        ((s.step settings readers e).elim [] fun s' => happenings s' rest)

variable {settings readers}

/-! ## What the services see -/

theorem invoke_system {s s' : AgentState} {d : Delivery}
    (h : s.invoke settings readers d = some s') :
    (serviceSystem settings).run s.system (AgentState.handed readers d).toList =
      some s'.system := by
  unfold AgentState.handed
  unfold AgentState.invoke at h
  split_ifs at h with hregister hcommand
  · have hother : d.event ≠ js "command" := by
      rw [hregister]
      decide
    rw [if_neg hother]
    cases hread : readers.register d.payload with
    | none =>
        rw [hread] at h
        obtain rfl := Option.some.inj h
        rfl
    | some data =>
        rw [hread] at h
        obtain rfl := Option.some.inj h
        rfl
  · rw [if_pos hcommand]
    cases hread : readers.command d.payload with
    | none =>
        rw [hread] at h
        obtain rfl := Option.some.inj h
        rfl
    | some command =>
        rw [hread] at h
        obtain ⟨system, hsystem, rfl⟩ := Option.map_eq_some_iff.mp h
        have hstep : (serviceSystem settings).step s.system (.command command) = some system :=
          hsystem
        simp [Machine.run, hstep]
  · rw [if_neg hcommand]
    obtain rfl := Option.some.inj h
    rfl

theorem step_happening {s s' : AgentState} {happened : Happening}
    (h : s.step settings readers (.happening happened) = some s') :
    ∃ system, (serviceSystem settings).step s.system happened = some system ∧
      s' = { s with system := system } := by
  have hmoved : (s.system.step settings happened).map
      (fun system => { s with system := system }) = some s' := by
    cases happened with
    | command command => cases h
    | created container name => exact h
    | docker container status timestamp action exitCode => exact h
    | resume task answer => exact h
    | reject task error => exact h
    | updated update done => exact h
  obtain ⟨system, hsystem, rfl⟩ := Option.map_eq_some_iff.mp hmoved
  exact ⟨system, hsystem, rfl⟩

theorem step_system {s s' : AgentState} {e : AgentEvent}
    (h : s.step settings readers e = some s') :
    (serviceSystem settings).run s.system (s.toServices readers e).toList = some s'.system := by
  cases e with
  | delivered d =>
      change s.deliver settings readers d = some s' at h
      unfold AgentState.deliver at h
      unfold AgentState.toServices
      dsimp only at h ⊢
      split_ifs at h ⊢
      · have hinvoked := invoke_system h
        exact hinvoked
      · obtain rfl := Option.some.inj h
        rfl
  | saved handler =>
      obtain ⟨identity, -, rfl⟩ := Option.map_eq_some_iff.mp h
      rfl
  | resumed handler =>
      obtain ⟨identity, -, rfl⟩ := Option.map_eq_some_iff.mp h
      rfl
  | happening happened =>
      obtain ⟨system, hstep, rfl⟩ := step_happening h
      simp [AgentState.toServices, Machine.run, hstep]

theorem run_happenings {s s' : AgentState} {events : List AgentEvent}
    (hrun : (agentProcess settings readers).run s events = some s') :
    (serviceSystem settings).run s.system (happenings settings readers s events) =
      some s'.system := by
  induction events generalizing s with
  | nil =>
      obtain rfl := Option.some.inj hrun
      rfl
  | cons e rest ih =>
      obtain ⟨t, ht, hrest⟩ := Machine.run_cons hrun
      have hstep : s.step settings readers e = some t := ht
      rw [happenings, hstep, Option.elim_some, Machine.run_append, step_system hstep,
        Option.bind_some]
      exact ih hrest

/-- A command the services see was delivered. -/
theorem delivered_of_command {s s' : AgentState} {events : List AgentEvent}
    (hrun : (agentProcess settings readers).run s events = some s') {command : Command}
    (h : .command command ∈ happenings settings readers s events) :
    ∃ before d after t, events = before ++ .delivered d :: after ∧
      (agentProcess settings readers).run s before = some t ∧
      t.toServices readers (.delivered d) = some (.command command) := by
  induction events generalizing s with
  | nil => cases h
  | cons e rest ih =>
      obtain ⟨t, ht, hrest⟩ := Machine.run_cons hrun
      have hstep : s.step settings readers e = some t := ht
      rw [happenings, hstep, Option.elim_some] at h
      rcases List.mem_append.mp h with hnow | hlater
      · have hseen : s.toServices readers e = some (.command command) := by
          simpa using hnow
        cases e with
        | delivered d => exact ⟨[], d, rest, s, rfl, rfl, hseen⟩
        | saved handler => cases hseen
        | resumed handler => cases hseen
        | happening happened =>
            obtain rfl := Option.some.inj hseen
            cases hstep
      · obtain ⟨before, d, after, u, rfl, hbefore, hseen⟩ := ih hrest hlater
        refine ⟨e :: before, d, after, u, rfl, ?_, hseen⟩
        rw [Machine.run, ht]
        exact hbefore

/-! ## What the listener lets through -/

/-- The delivery is signed under the key and in time, and its nonce is not one the
listener remembers. -/
def Genuine (guard : ReplayGuard) (key : JsString) (d : Delivery) : Prop :=
  ∃ nonce timestamp, d.authenticated key = .ok (nonce, timestamp) ∧
    isExpired {} (.finite d.now) timestamp = false ∧ (guard.prune timestamp).has nonce = false

theorem genuine_of_receive {guard : ReplayGuard} {secret : Option JsString} {d : Delivery}
    (hevent : d.event ∉ unverifiedEvents)
    (h : (receive guard secret d.event d.payload (.finite d.now)).1 = true) :
    ∃ key, secret = some key ∧ Genuine guard key d := by
  unfold receive at h
  rw [if_neg hevent] at h
  cases hkey : truthy secret with
  | none =>
      rw [hkey] at h
      cases h
  | some key =>
      have hsecret : secret = some key := (Option.filter_eq_some_iff.mp hkey).1
      rw [hkey] at h
      refine ⟨key, hsecret, ?_⟩
      rcases verify_guard_cases d.event d.payload (some key) none guard none (.finite d.now) with
        ⟨reason, hresult, -⟩ | ⟨nonce, timestamp, hauth, hnow, ⟨-, hresult⟩ | ⟨hfresh, -⟩⟩
      · simp [hresult] at h
      · simp [hresult] at h
      · exact ⟨nonce, timestamp, hauth, hnow, hfresh⟩

/-- The key came with a `register` response among the events, or was in the table. -/
def Given (readers : Readers) (info : InfoKey → Option JsString) (events : List AgentEvent)
    (key : JsString) : Prop :=
  info .agentSigningSecret = some key ∨
    ∃ d data, .delivered d ∈ events ∧ d.event = js "register" ∧
      readers.register d.payload = some data ∧ data.newSecret = some key

/-- The secrets in memory and of the responses still in hand are among the keys. -/
structure KeysIn (keys : JsString → Prop) (s : IdentityState) : Prop where
  memory : ∀ key, s.memory.secret = some key → keys key
  handlers : ∀ h ∈ s.handlers, ∀ key, h.data.newSecret = some key → keys key

variable {keys : JsString → Prop}

theorem keysIn_saveSecret {memory : Identity} {data : RegisterData}
    (hmemory : ∀ key, memory.secret = some key → keys key)
    (hdata : ∀ key, data.newSecret = some key → keys key) :
    ∀ key, (IdentityState.saveSecret memory data).1.secret = some key → keys key := by
  intro key hkey
  unfold IdentityState.saveSecret at hkey
  split at hkey
  · rename_i secret hsecret
    exact hdata key (hsecret.trans hkey)
  · exact hmemory key hkey

theorem KeysIn.receive {s : IdentityState} (hs : KeysIn keys s) {data : RegisterData}
    (hdata : ∀ key, data.newSecret = some key → keys key) : KeysIn keys (s.receive data) := by
  constructor
  · intro key hkey
    unfold IdentityState.receive IdentityState.saveUuid at hkey
    dsimp only at hkey
    split_ifs at hkey
    · exact hs.memory key hkey
    · exact keysIn_saveSecret hs.memory hdata key hkey
  · intro h hmem
    rcases List.mem_append.mp hmem with hold | hnew
    · exact hs.handlers h hold
    · rw [List.mem_singleton.mp hnew]
      exact hdata

theorem KeysIn.set_handler {s : IdentityState} (hs : KeysIn keys s) {i : ℕ} {h : Handler}
    (hget : s.handlers[i]? = some h) (progress : Progress) :
    ∀ x ∈ s.handlers.set i ⟨h.data, progress⟩, ∀ key, x.data.newSecret = some key → keys key := by
  intro x hx
  rcases List.mem_or_eq_of_mem_set hx with hold | rfl
  · exact hs.handlers x hold
  · exact hs.handlers h (List.mem_of_getElem? hget)

theorem KeysIn.commit {s s' : IdentityState} (hs : KeysIn keys s) {i : ℕ}
    (hstep : identityStep s (.commit i) = some s') : KeysIn keys s' := by
  unfold identityStep at hstep
  dsimp only at hstep
  split at hstep
  · rename_i h hget
    split at hstep
    · obtain rfl := Option.some.inj hstep
      exact ⟨hs.memory, hs.set_handler hget _⟩
    · cases hstep
  · cases hstep

theorem KeysIn.resume {s s' : IdentityState} (hs : KeysIn keys s) {i : ℕ}
    (hstep : identityStep s (.resume i) = some s') : KeysIn keys s' := by
  unfold identityStep at hstep
  dsimp only at hstep
  split at hstep
  · rename_i h hget
    split at hstep
    · rename_i key _
      obtain rfl := Option.some.inj hstep
      have hdata := hs.handlers h (List.mem_of_getElem? hget)
      cases key with
      | agentUuid => exact ⟨keysIn_saveSecret hs.memory hdata, hs.set_handler hget _⟩
      | agentSigningSecret => exact ⟨hs.memory, hs.set_handler hget _⟩
      | agentCode => exact ⟨hs.memory, hs.set_handler hget _⟩
      | agentIp => exact ⟨hs.memory, hs.set_handler hget _⟩
    · cases hstep
  · cases hstep

variable {info : InfoKey → Option JsString} {s : AgentState} {events : List AgentEvent}

theorem KeysIn.deliver {s' : AgentState} (hs : KeysIn keys s.identity) {d : Delivery}
    (hgiven : ∀ data key, d.event = js "register" → readers.register d.payload = some data →
      data.newSecret = some key → keys key)
    (hstep : s.deliver settings readers d = some s') : KeysIn keys s'.identity := by
  unfold AgentState.deliver at hstep
  dsimp only at hstep
  split_ifs at hstep with hinvoked
  · unfold AgentState.invoke at hstep
    split_ifs at hstep with hregister hcommand
    · cases hread : readers.register d.payload with
      | none =>
          rw [hread] at hstep
          obtain rfl := Option.some.inj hstep
          exact hs
      | some data =>
          rw [hread] at hstep
          obtain rfl := Option.some.inj hstep
          exact hs.receive fun key => hgiven data key hregister hread
    · cases hread : readers.command d.payload with
      | none =>
          rw [hread] at hstep
          obtain rfl := Option.some.inj hstep
          exact hs
      | some command =>
          rw [hread] at hstep
          obtain ⟨system, -, rfl⟩ := Option.map_eq_some_iff.mp hstep
          exact hs
    · obtain rfl := Option.some.inj hstep
      exact hs
  · obtain rfl := Option.some.inj hstep
    exact hs

theorem keysIn_run (hrun : (agentProcess settings readers).run (.load info) events = some s) :
    KeysIn (Given readers info events) s.identity := by
  have hstart : KeysIn (Given readers info events) (AgentState.load info).identity :=
    ⟨fun key hkey => .inl hkey, fun h hmem => nomatch hmem⟩
  refine @Machine.Along.run_invariant _ _ (agentProcess settings readers) _
    (fun t => KeysIn (Given readers info events) t.identity) ?_ _ _ _
    (Machine.along_of_forall (fun e (he : e ∈ events) => he) (AgentState.load info)) hstart hrun
  intro t e t' ht he hstep
  cases e with
  | delivered d =>
      refine KeysIn.deliver ht (fun data key hevent hread hsecret => ?_) hstep
      exact .inr ⟨d, data, he, hevent, hread, hsecret⟩
  | saved handler =>
      obtain ⟨identity, hidentity, rfl⟩ := Option.map_eq_some_iff.mp hstep
      exact ht.commit hidentity
  | resumed handler =>
      obtain ⟨identity, hidentity, rfl⟩ := Option.map_eq_some_iff.mp hstep
      exact ht.resume hidentity
  | happening happened =>
      obtain ⟨system, -, rfl⟩ := step_happening hstep
      exact ht

/-! ## Changes in docker -/

/-- The delivery hands over the command, signed under a key the agent was given. -/
def SignedFor (readers : Readers) (info : InfoKey → Option JsString) (before : List AgentEvent)
    (t : AgentState) (d : Delivery) (command : Command) : Prop :=
  d.event = js "command" ∧ readers.command d.payload = some command ∧
    ∃ key, t.identity.memory.secret = some key ∧ Given readers info before key ∧
      Genuine t.replayGuard key d

/-- An agent that was registered before, and a signed deployment with docker's
answers. -/
def registeredInfo : InfoKey → Option JsString
  | .agentSigningSecret => some (js "secret")
  | _ => none

def deploysApp : Readers where
  register _ := none
  command _ := some (.deploy redeployedApp)

def signedDeployment : List AgentEvent :=
  .delivered (signedDelivery (js "secret") (js "n1") edgeClock edgeClock) ::
    List.replicate 19 (.happening (.resume 0 willingAnswer))

end OpticsAgent.Tunnel
