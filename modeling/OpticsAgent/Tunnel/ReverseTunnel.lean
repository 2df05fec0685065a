import Mathlib
import OpticsAgent.Ecma.StringToNumber
import OpticsAgent.Lib.Machine
import OpticsAgent.Lib.Timers
import OpticsAgent.Tunnel.LineReader
import OpticsAgent.Utility.Hash

/-!
The preconnect pool of `ReverseTunnelService`. A state has the service's
fields, the connections it created and the timers that are live; an event is
one callback Node can make, and runs to completion.

The variables that hold a timer (`connectDeadline`, `ackDeadline`,
`connection.heartbeat`, `connection.pongDeadline`, `this.refillTimer`) are
indexed by the callback the timer runs. A live timer may fire at any
moment: only the delay it was started with is kept, without the random jitter.
Logging is left out, and so is what happens between the two sockets of a
consumed connection after they are piped together.
-/

namespace OpticsAgent.Tunnel

open OpticsAgent.Ecma OpticsAgent.Node OpticsAgent.Utility OpticsAgent.Lib

def targetPoolCount : ℕ := 10

def connectTimeoutMs : ℕ := 10000

def ackTimeoutMs : ℕ := 5000

def heartbeatIntervalMs : ℕ := 20000

def pongTimeoutMs : ℕ := 5000

/-- Rejections a retry cannot fix. -/
def fatalRejections : List JsString := [js "invalid_signature", js "expired", js "no_secret"]

/-- The function a timer runs. -/
inductive Callback where
  | connectDeadline (c : ℕ)
  | ackDeadline (c : ℕ)
  | heartbeat (c : ℕ)
  | pongDeadline (c : ℕ)
  | refill
  deriving DecidableEq

/-- The connection a callback acts on. -/
def Callback.owner : Callback → Option ℕ
  | connectDeadline c => some c
  | ackDeadline c => some c
  | heartbeat c => some c
  | pongDeadline c => some c
  | refill => none

/-- A connection, its socket and the flag of its `settle` closure. -/
structure Connection where
  buffer : List Byte := []
  detached : Bool := false
  unhealthy : Bool := false
  settled : Bool := false
  connected : Bool := false
  destroyed : Bool := false
  closed : Bool := false
  /-- What was written to the socket, oldest first. -/
  written : List JsString := []
  /-- The local port and the bytes behind the OPEN line, once piped. -/
  piped : Option (ℤ × List Byte) := none
  deriving DecidableEq

structure State where
  created : ℕ := 0
  connections : ℕ → Connection := fun _ => {}
  pool : Finset ℕ := ∅
  pending : ℤ := 0
  consecutiveFailures : ℕ := 0
  suspended : Bool := false
  agentUuid : Option JsString := none
  timers : Timers Callback := {}

namespace State

/-! ## Connections and timers -/

def updateConnection (s : State) (c : ℕ) (f : Connection → Connection) : State :=
  { s with connections := Function.update s.connections c (f (s.connections c)) }

def startTimer (s : State) (callback : Callback) (delayMs : ℕ) : State :=
  { s with timers := s.timers.start callback delayMs }

def clearTimer (s : State) (callback : Callback) : State :=
  { s with timers := s.timers.clear callback }

def forgetTimer (s : State) (callback : Callback) : State :=
  { s with timers := s.timers.forget callback }

/-- `socket.destroy()`. -/
def destroy (s : State) (c : ℕ) : State :=
  s.updateConnection c fun k => { k with destroyed := true }

/-- `socket.write(text)`; a destroyed socket drops it. -/
def write (s : State) (c : ℕ) (text : JsString) : State :=
  s.updateConnection c fun k => if k.destroyed then k else { k with written := k.written ++ [text] }

def markUnhealthy (s : State) (c : ℕ) : State :=
  s.updateConnection c fun k => { k with unhealthy := true }

def settle (s : State) (c : ℕ) : State :=
  if (s.connections c).settled then s
  else
    { s.updateConnection c (fun k => { k with settled := true }) with pending := s.pending - 1 }

def startHeartbeat (s : State) (c : ℕ) : State :=
  s.startTimer (.heartbeat c) heartbeatIntervalMs

def stopHeartbeat (s : State) (c : ℕ) : State :=
  (((s.clearTimer (.heartbeat c)).clearTimer (.pongDeadline c)).forgetTimer
    (.heartbeat c)).forgetTimer (.pongDeadline c)

/-! ## Filling the pool -/

/-- A new socket and its connection, counted as pending. -/
def netConnect (s : State) : State :=
  { s with
    pending := s.pending + 1
    created := s.created + 1
    connections := Function.update s.connections s.created {} }

/-- The connect deadline runs from the start. -/
def preconnect (s : State) : State :=
  s.netConnect.startTimer (.connectDeadline s.created) connectTimeoutMs

/-- `while (pool.size + pending < limit) preconnect()`; every turn raises
`pending` by one. -/
def fillTo (limit : ℕ) : ℕ → State → State
  | 0, s => s
  | fuel + 1, s =>
      if (s.pool.card : ℤ) + s.pending < limit then fillTo limit fuel s.preconnect else s

/-- An empty pool is probed with one connection. -/
def poolLimit (s : State) : ℕ := if s.pool.card = 0 then 1 else targetPoolCount

def formPreconnectPool (s : State) : State :=
  if s.suspended then s
  else
    s.fillTo s.poolLimit ((s.poolLimit : ℤ) - (s.pool.card + s.pending)).toNat

/-- The delay before the jitter. -/
def backoffMs (consecutiveFailures : ℕ) : ℕ := min (500 * 2 ^ (consecutiveFailures - 1)) 30000

def scheduleRefill (s : State) : State :=
  if s.suspended || (s.timers.handles .refill).isSome then s
  else
    let failures := s.consecutiveFailures + 1
    ({ s with consecutiveFailures := failures }).startTimer .refill (backoffMs failures)

def cancelRefill (s : State) : State :=
  (s.clearTimer .refill).forgetTimer .refill

/-- A secret that is `null` or missing fails the checks; the uuid is kept even
then. -/
def initPreconnectPool (s : State) (agentUuid : Option JsString) (secret : Option JsString) :
    State :=
  let named := match truthy agentUuid with
    | some uuid => { s with agentUuid := some uuid }
    | none => s
  if (truthy agentUuid).isSome && secret.isSome then
    (cancelRefill { named with suspended := false, consecutiveFailures := 0 }).formPreconnectPool
  else named

/-! ## Socket callbacks -/

/-- The `connect` callback. Without a secret `digest` throws, after the
deadline is cleared and before anything is written. -/
def onConnect (s : State) (c : ℕ) (secret : Option JsString) (timestamp : Number)
    (nonce : JsString) : State :=
  let cleared := (s.clearTimer (.connectDeadline c)).forgetTimer (.connectDeadline c)
  let connected := cleared.updateConnection c fun k => { k with connected := true }
  match secret with
  | none => connected
  | some key =>
      let uuid : JsValue := match s.agentUuid with
        | some u => .str u
        | none => .undefined
      let signature := digest (js "tunnel:pre") timestamp nonce
        (.obj [(js "agentUuid", uuid)]) key
      let line := js "tunnel:pre:v1 " ++ s.agentUuid.getD (js "undefined") ++ 32 ::
        timestamp.toText ++ 32 :: nonce ++ 32 :: signature ++ [10]
      (connected.write c line).startTimer (.ackDeadline c) ackTimeoutMs

/-- The port an OPEN line names, when it is one. -/
def targetPort? (args : List JsString) : Option ℤ :=
  match args with
  | [] => none
  | text :: _ =>
      match (numberOfText text).toInteger? with
      | some port => if port ≤ 0 ∨ 65535 < port then none else some port
      | none => none

def pipeToLocalService (s : State) (c : ℕ) (args : List JsString) (rest : List Byte) : State :=
  match targetPort? args with
  | none => s.destroy c
  | some port => s.updateConnection c fun k => { k with piped := some (port, rest) }

def onPreOk (s : State) (c : ℕ) : State :=
  let settled := (s.clearTimer (.ackDeadline c)).settle c
  let pooled := ({ settled with pool := insert c settled.pool }).startHeartbeat c
  let formed := pooled.formPreconnectPool
  if targetPoolCount ≤ formed.pool.card then { formed with consecutiveFailures := 0 } else formed

def onPreErr (s : State) (c : ℕ) (args : List JsString) : State :=
  let cleared := s.clearTimer (.ackDeadline c)
  let reason := args.head?.getD (js "unknown")
  let judged :=
    if reason ∈ fatalRejections then cancelRefill { cleared with suspended := true } else cleared
  (judged.settle c).destroy c

def onPong (s : State) (c : ℕ) : State :=
  (s.clearTimer (.pongDeadline c)).forgetTimer (.pongDeadline c)

def onOpen (s : State) (c : ℕ) (args : List JsString) (rest : List Byte) : State :=
  let detached := s.updateConnection c fun k => { k with detached := true }
  let stopped := detached.stopHeartbeat c
  let consumed := ({ stopped with pool := stopped.pool.erase c }).formPreconnectPool
  consumed.pipeToLocalService c args rest

/-- The frame handler, and whether it detached the reader. -/
def onFrame (c : ℕ) (frame : Frame) (rest : List Byte) (s : State) : State × Bool :=
  if frame.verb = js "PRE:OK" then (s.onPreOk c, false)
  else if frame.verb = js "PRE:ERR" then (s.onPreErr c frame.args, false)
  else if frame.verb = js "PONG" then (s.onPong c, false)
  else if frame.verb = js "OPEN" then (s.onOpen c frame.args rest, true)
  else (s, false)

def onSocketData (s : State) (c : ℕ) (chunk : List Byte) : State :=
  let result := onData (onFrame c) (s.connections c).buffer chunk s
  result.1.updateConnection c fun k => { k with buffer := result.2.1 }

def onClose (s : State) (c : ℕ) : State :=
  let gone := s.updateConnection c fun k => { k with closed := true }
  let cleared := ((gone.clearTimer (.connectDeadline c)).clearTimer (.ackDeadline c)).stopHeartbeat c
  let removed := { cleared with pool := cleared.pool.erase c }
  if !(s.connections c).settled then (removed.settle c).scheduleRefill
  else if c ∉ s.pool then removed
  else if (s.connections c).unhealthy then removed.scheduleRefill
  else removed.formPreconnectPool

/-! ## Timer callbacks -/

def onTimer (s : State) : Callback → State
  | .connectDeadline c => ((s.forgetTimer (.connectDeadline c)).markUnhealthy c).destroy c
  | .ackDeadline c => s.destroy c
  | .heartbeat c =>
      if (s.timers.handles (.pongDeadline c)).isSome then s
      else (s.write c (js "PING\n")).startTimer (.pongDeadline c) pongTimeoutMs
  | .pongDeadline c => (s.markUnhealthy c).destroy c
  | .refill => (s.forgetTimer .refill).formPreconnectPool

/-- Only the heartbeat is an interval; the others fire once. -/
def repeats : Callback → Bool
  | .heartbeat _ => true
  | _ => false

def expire (s : State) (id : ℕ) : State :=
  { s with timers := s.timers.expire id }

def fire (s : State) (t : Timer Callback) : State :=
  if repeats t.key then s.onTimer t.key else (s.expire t.id).onTimer t.key

end State

/-! ## Events -/

inductive Event where
  | init (agentUuid secret : Option JsString)
  | connect (c : ℕ) (secret : Option JsString) (timestamp : Number) (nonce : JsString)
  | data (c : ℕ) (chunk : List Byte)
  | error (c : ℕ)
  | close (c : ℕ)
  | timer (id : ℕ)

/-- What Node can call back. No `connect` or `data` comes after `destroy()` or
`close`, a detached reader gets no data, and `close` comes once. -/
def step (s : State) : Event → Option State
  | .init agentUuid secret => some (s.initPreconnectPool agentUuid secret)
  | .connect c secret timestamp nonce =>
      let k := s.connections c
      if c < s.created ∧ !k.connected ∧ !k.destroyed ∧ !k.closed then
        some (s.onConnect c secret timestamp nonce)
      else none
  | .data c chunk =>
      let k := s.connections c
      if c < s.created ∧ k.connected ∧ !k.destroyed ∧ !k.closed ∧ !k.detached then
        some (s.onSocketData c chunk)
      else none
  | .error c => if c < s.created ∧ !(s.connections c).closed then some (s.markUnhealthy c) else none
  | .close c => if c < s.created ∧ !(s.connections c).closed then some (s.onClose c) else none
  | .timer id => (s.timers.live.find? fun t => t.id = id).map s.fire

/-- What a step can do, with what its callback may rely on. -/
inductive Transition (s : State) : Event → State → Prop
  | init (agentUuid secret : Option JsString) :
      Transition s (.init agentUuid secret) (s.initPreconnectPool agentUuid secret)
  | connect (c : ℕ) (secret : Option JsString) (timestamp : Number) (nonce : JsString)
      (hcreated : c < s.created) (hfirst : (s.connections c).connected = false)
      (halive : (s.connections c).closed = false) :
      Transition s (.connect c secret timestamp nonce) (s.onConnect c secret timestamp nonce)
  | data (c : ℕ) (chunk : List Byte) (hcreated : c < s.created)
      (hconnected : (s.connections c).connected = true)
      (hintact : (s.connections c).destroyed = false) (halive : (s.connections c).closed = false)
      (hreading : (s.connections c).detached = false) :
      Transition s (.data c chunk) (s.onSocketData c chunk)
  | error (c : ℕ) : Transition s (.error c) (s.markUnhealthy c)
  | close (c : ℕ) (hcreated : c < s.created) (halive : (s.connections c).closed = false) :
      Transition s (.close c) (s.onClose c)
  | timer (t : Timer Callback) (hlive : t ∈ s.timers.live) : Transition s (.timer t.id) (s.fire t)

theorem transition_of_step {s s' : State} {event : Event} (h : step s event = some s') :
    Transition s event s' := by
  cases event with
  | init agentUuid secret =>
      obtain rfl := Option.some.inj h
      exact .init agentUuid secret
  | connect c secret timestamp nonce =>
      simp only [step, Option.ite_none_right_eq_some, Option.some.injEq, Bool.not_eq_true'] at h
      obtain ⟨⟨hcreated, hfirst, -, halive⟩, rfl⟩ := h
      exact .connect c secret timestamp nonce hcreated hfirst halive
  | data c chunk =>
      simp only [step, Option.ite_none_right_eq_some, Option.some.injEq, Bool.not_eq_true'] at h
      obtain ⟨⟨hcreated, hconnected, hintact, halive, hreading⟩, rfl⟩ := h
      exact .data c chunk hcreated hconnected hintact halive hreading
  | error c =>
      simp only [step, Option.ite_none_right_eq_some, Option.some.injEq] at h
      obtain ⟨-, rfl⟩ := h
      exact .error c
  | close c =>
      simp only [step, Option.ite_none_right_eq_some, Option.some.injEq, Bool.not_eq_true'] at h
      obtain ⟨⟨hcreated, halive⟩, rfl⟩ := h
      exact .close c hcreated halive
  | timer id =>
      obtain ⟨t, hfound, rfl⟩ := Option.map_eq_some_iff.mp h
      obtain rfl : t.id = id := by simpa using List.find?_some hfound
      exact .timer t (List.mem_of_find?_eq_some hfound)

def service : Machine State Event where
  step := step

/-- The service as constructed. -/
def start : State := {}

/-- A registration and the first connection of the pool. -/
def firstContact : List Event :=
  [.init (some (js "agent")) (some (js "secret")),
    .connect 0 (some (js "secret")) (Number.ofInt 1756000000000) (js "n1")]

/-- Text the server sends on a connection. -/
def sends (c : ℕ) (text : String) : Event := .data c (utf8Bytes (js text))

end OpticsAgent.Tunnel
