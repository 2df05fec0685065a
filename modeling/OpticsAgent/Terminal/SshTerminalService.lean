import Mathlib
import OpticsAgent.Ecma.StringToNumber
import OpticsAgent.Lib.InsertionMap
import OpticsAgent.Lib.Machine
import OpticsAgent.Node.Buffer

/-!
`SshTerminalService`: terminal sessions on the host over SSH. Calls of `open`
are numbered from 0. The number of a call also names its callbacks, the SSH
client it creates and the stream of that client's shell. The clients' events
come in any order; an event whose listener is gone is not seen by the service.
-/

namespace OpticsAgent.Terminal

open OpticsAgent.Ecma OpticsAgent.Lib OpticsAgent.Node

/-! ## Configuration -/

/-- What `open` reads: the configuration, and the files of the agent. -/
structure SshHost where
  get : JsString → Option JsString
  readFileSync : JsString → Except JsString (List Byte)

/-- The verifier is kept as the hash it accepts. -/
structure ConnectConfig where
  host : JsString
  port : Number
  username : JsString
  privateKey : Option (List Byte)
  passphrase : Option JsString
  password : Option JsString
  readyTimeout : ℕ
  keepaliveInterval : ℕ
  keepaliveCountMax : ℕ
  hostHash : Option JsString
  hostVerifier : Option JsString
  serverHostKey : Option (List JsString)

/-- A variable with a value other than the empty string. -/
def SshHost.truthy? (h : SshHost) (name : JsString) : Option JsString :=
  (h.get name).filter fun value => value ≠ []

def SshHost.createConnectConfig (h : SshHost) : Except JsString ConnectConfig :=
  match h.truthy? (js "HOST_SSH_USERNAME") with
  | none => throw (js "HOST_SSH_USERNAME is not configured.")
  | some username => do
      let privateKeyPath := h.truthy? (js "HOST_SSH_PRIVATE_KEY_PATH")
      if privateKeyPath = none ∧ h.truthy? (js "HOST_SSH_PASSWORD") = none then
        throw (js "HOST_SSH_PRIVATE_KEY_PATH or HOST_SSH_PASSWORD is required.")
      let expectedHostHash := h.truthy? (js "HOST_SSH_HOST_HASH")
      let privateKey ← match privateKeyPath with
        | some path => (h.readFileSync path).map some
        | none => pure none
      return {
        host := (h.get (js "HOST_SSH_HOST")).getD (js "host.docker.internal")
        port := ((h.get (js "HOST_SSH_PORT")).map numberOfText).getD (Number.ofInt 22)
        username := username
        privateKey := privateKey
        passphrase := h.get (js "HOST_SSH_PRIVATE_KEY_PASSPHRASE")
        password := h.get (js "HOST_SSH_PASSWORD")
        readyTimeout := 10000
        keepaliveInterval := 15000
        keepaliveCountMax := 2
        hostHash := expectedHostHash.map fun _ => js "sha256"
        hostVerifier := expectedHostHash
        serverHostKey := expectedHostHash.map fun _ => [js "ssh-ed25519"] }

/-! ## Sessions -/

structure TerminalSession where
  client : ℕ
  callbacks : ℕ
  stream : Option ℕ := none
deriving DecidableEq

structure TerminalSize where
  cols : Number
  rows : Number
deriving DecidableEq

/-- What is listened to on a client and its stream; `shell` is the callback of
`client.shell`. -/
inductive Listener where
  | ready
  | shell
  | error
  | close
  | streamData
  | streamClose
deriving DecidableEq

/-- One call of `open`. A refused one listens to nothing. -/
structure Opening where
  sessionId : JsString
  size : TerminalSize
  listening : List Listener
deriving DecidableEq

inductive TerminalEffect where
  | connect (client : ℕ) (config : ConnectConfig)
  | shell (client : ℕ) (term : JsString) (size : TerminalSize)
  | endClient (client : ℕ)
  | write (stream : ℕ) (data : JsString)
  | setWindow (stream : ℕ) (rows cols : Number)
  | closeStream (stream : ℕ)
  | onReady (callbacks : ℕ)
  | onData (callbacks : ℕ) (data : JsString)
  | onClose (callbacks : ℕ) (reason : Option JsString)

structure TerminalState where
  sessions : InsertionMap JsString TerminalSession := {}
  openings : List Opening := []
  effects : List TerminalEffect := []

inductive ClientEvent where
  | ready
  | shell (error : Option JsString)
  | error (message : JsString)
  | close
  | streamData (data : List Byte)
  | streamClose
deriving DecidableEq

def ClientEvent.listener : ClientEvent → Listener
  | .ready => .ready
  | .shell _ => .shell
  | .error _ => .error
  | .close => .close
  | .streamData _ => .streamData
  | .streamClose => .streamClose

def Opening.listen (opening : Opening) (listeners : List Listener) : Opening :=
  { opening with listening := listeners ++ opening.listening }

/-- All listeners but the one for data are there for one event. -/
def Opening.hear (opening : Opening) : ClientEvent → Opening
  | .streamData _ => opening
  | event => { opening with listening := opening.listening.erase event.listener }

/-- Calls of the service, and events of the clients its calls created. -/
inductive TerminalEvent where
  | «open» (sessionId : JsString) (size : TerminalSize) (host : SshHost)
  | write (sessionId data : JsString)
  | resize (sessionId : JsString) (cols rows : Number)
  | close (sessionId : JsString)
  | destroy
  | client (client : ℕ) (event : ClientEvent)

namespace TerminalState

def act (s : TerminalState) (effects : List TerminalEffect) : TerminalState :=
  { s with effects := s.effects ++ effects }

def setSession (s : TerminalState) (sessionId : JsString) (session : TerminalSession) :
    TerminalState :=
  { s with sessions := s.sessions.set sessionId session }

def deleteSession (s : TerminalState) (sessionId : JsString) : TerminalState :=
  { s with sessions := s.sessions.erase sessionId }

def finish (s : TerminalState) (sessionId : JsString) (reason : Option JsString) : TerminalState :=
  match s.sessions.get sessionId with
  | none => s
  | some session =>
      (s.deleteSession sessionId).act
        ((session.stream.map TerminalEffect.closeStream).toList ++
          [.endClient session.client, .onClose session.callbacks reason])

def addOpening (s : TerminalState) (sessionId : JsString) (size : TerminalSize)
    (listening : List Listener) : TerminalState :=
  { s with openings := s.openings ++ [⟨sessionId, size, listening⟩] }

/-- A call of `open` that only calls its own `onClose`. -/
def refuse (s : TerminalState) (sessionId : JsString) (size : TerminalSize) (reason : JsString) :
    TerminalState :=
  (s.addOpening sessionId size []).act [.onClose s.openings.length (some reason)]

/-- What `client.connect` throws goes on to the caller and changes nothing here. -/
def «open» (s : TerminalState) (sessionId : JsString) (size : TerminalSize) (host : SshHost) :
    TerminalState :=
  if (s.sessions.get sessionId).isSome then
    s.refuse sessionId size (js "Terminal session already exists.")
  else
    match host.createConnectConfig with
    | .error message => s.refuse sessionId size message
    | .ok config =>
        let client := s.openings.length
        ((s.setSession sessionId { client := client, callbacks := client }).addOpening sessionId
          size [.ready, .error, .close]).act [.connect client config]

def streamOf (s : TerminalState) (sessionId : JsString) : Option ℕ :=
  (s.sessions.get sessionId).bind TerminalSession.stream

def write (s : TerminalState) (sessionId data : JsString) : TerminalState :=
  match s.streamOf sessionId with
  | some stream => s.act [.write stream data]
  | none => s

def resize (s : TerminalState) (sessionId : JsString) (cols rows : Number) : TerminalState :=
  match s.streamOf sessionId with
  | some stream => s.act [.setWindow stream rows cols]
  | none => s

def close (s : TerminalState) (sessionId : JsString) : TerminalState :=
  s.finish sessionId none

/-- Finishes the sessions in the order of their keys. -/
def onModuleDestroy (s : TerminalState) : TerminalState :=
  (s.sessions.entries.map Prod.fst).foldl (fun t sessionId => t.finish sessionId none) s

/-! ## Listeners -/

def register (s : TerminalState) (client : ℕ) (opening : Opening) : TerminalState :=
  { s with openings := s.openings.set client opening }

/-- The listener of the event runs. -/
def handle (s : TerminalState) (client : ℕ) (opening : Opening) : ClientEvent → TerminalState
  | .ready =>
      (s.register client (opening.listen [.shell])).act
        [.shell client (js "xterm-256color") opening.size]
  | .shell (some message) => s.finish opening.sessionId (some message)
  | .shell none =>
      match s.sessions.get opening.sessionId with
      | none => s.act [.closeStream client]
      | some session =>
          ((s.setSession opening.sessionId { session with stream := some client }).register client
            (opening.listen [.streamData, .streamClose])).act [.onReady client]
  | .error message => s.finish opening.sessionId (some message)
  | .close => s.finish opening.sessionId none
  | .streamData data => s.act [.onData client (utf8Text data)]
  | .streamClose => s.finish opening.sessionId none

end TerminalState

/-- A client that no call created has no events. -/
def terminalStep (s : TerminalState) : TerminalEvent → Option TerminalState
  | .open sessionId size host => some (s.open sessionId size host)
  | .write sessionId data => some (s.write sessionId data)
  | .resize sessionId cols rows => some (s.resize sessionId cols rows)
  | .close sessionId => some (s.close sessionId)
  | .destroy => some s.onModuleDestroy
  | .client client event => do
      let opening ← s.openings[client]?
      if event.listener ∈ opening.listening then
        let heard := opening.hear event
        return (s.register client heard).handle client heard event
      else
        return s

def terminalSystem : Machine TerminalState TerminalEvent := ⟨terminalStep⟩

end OpticsAgent.Terminal
