import Mathlib
import OpticsAgent.Ecma.Coercion
import OpticsAgent.Lib.InsertionMap
import OpticsAgent.Lib.Program
import OpticsAgent.Docker.DeployCommand
import OpticsAgent.Docker.Output

/-!
What the service code of the agent can do: call docker and the file system,
query the local database, use the maps it keeps in memory, and emit to the Hub.
Docker and the file system are outside the agent. They are a host that answers
calls, with no law assumed here.
-/

namespace OpticsAgent.Docker

open OpticsAgent.Ecma OpticsAgent.Node OpticsAgent.Lib

/-! ## Statuses, snapshots and what is emitted -/

inductive ContainerStatus where
  | building | starting | running | stopped | failed | removed
deriving DecidableEq

inductive ServiceStatus where
  | stopped | building | starting | running | restarting | failed | removed
deriving DecidableEq

/-- Both types are unions of strings with these in common. -/
def ContainerStatus.toServiceStatus : ContainerStatus → ServiceStatus
  | .building => .building
  | .starting => .starting
  | .running => .running
  | .stopped => .stopped
  | .failed => .failed
  | .removed => .removed

structure ContainerState where
  name : JsString
  status : ContainerStatus
  service : Option JsString := none
  exitCode : Option Number := none
  health : Option JsString := none
deriving DecidableEq

structure ContainerSnapshot where
  serviceIndex : ℤ
  containers : List ContainerState
  running : ℕ
  total : ℕ
deriving DecidableEq

inductive LogOrigin where
  | deploy | lifecycle | runtime
deriving DecidableEq

/-- The payload of a `service-log`, next to its service index. -/
structure ServiceLog where
  log : JsString
  timestamp : JsString
  stream : LogOrigin
  containerName : JsString
  stderr : Bool := false
deriving DecidableEq

inductive MarkerEvent where
  | deploy | redeploy | start
deriving DecidableEq

/-- A row of `ServiceLogSessionMarker`. -/
structure Marker where
  serviceIndex : ℤ
  serviceName : JsString
  containerName : JsString
  event : MarkerEvent
  timestamp : ℤ
deriving DecidableEq

inductive Emission where
  | serviceLog (serviceIndex : ℤ) (entry : ServiceLog)
  | serviceStatus (serviceIndex : ℤ) (status : ServiceStatus)
  | containerStatus (snapshot : ContainerSnapshot)
  | serviceLogMarkers (serviceIndex : ℤ) (markers : List Marker)
deriving DecidableEq

/-- The service an emission is about. -/
def Emission.serviceIndex : Emission → ℤ
  | .serviceLog i _ => i
  | .serviceStatus i _ => i
  | .containerStatus snapshot => snapshot.serviceIndex
  | .serviceLogMarkers i _ => i

/-! ## Calls -/

structure CliResult where
  status : Option ℤ
  stdout : JsString
  stderr : JsString
deriving DecidableEq

/-- A process that was waited for: its output in the chunks it came in, and
whether it could not be started or closed with a code. -/
structure CliRun where
  chunks : List (List Byte)
  ending : Except JsError (Option ℤ)

structure ContainerSpec where
  image : JsString
  name : JsString
  env : Option (List JsString)
  exposedPorts : List JsString
  portBindings : List (JsString × JsString)
  restartPolicy : JsString
  extraHosts : List JsString
deriving DecidableEq

structure BuildEvent where
  stream : Option JsString := none
  error : Option JsString := none
deriving DecidableEq

/-- What `followProgress` hands over: the events, and its error. -/
structure BuildOutput where
  events : List BuildEvent
  error : Option JsError

inductive Call where
  | runSync (args : List JsString) (cwd : Option JsString)
  | run (args : List JsString) (cwd : Option JsString)
  | inspectContainer (name : JsString)
  | stopContainer (name : JsString)
  | restartContainer (name : JsString)
  | startContainer (name : JsString)
  | removeContainer (name : JsString)
  | createContainer (spec : ContainerSpec)
  | removeImage (reference : JsString)
  | buildImage (context : JsString) (src : List JsString) (tag : JsString)
  | existsSync (path : JsString)
  | isDirectory (path : JsString)
  | mkdirSync (path : JsString)
  | rmSync (path : JsString)
  | readdirSync (path : JsString)
  | chmodSync (path : JsString)
  | writeFileSync (path content : JsString)
deriving DecidableEq

/-- `inspectContainer` answers with `State.Running`. -/
abbrev Call.Reply : Call → Type
  | .runSync .. => CliResult
  | .run .. => CliRun
  | .inspectContainer _ => Except JsError Bool
  | .buildImage .. => Except JsError BuildOutput
  | .existsSync _ => Bool
  | .isDirectory _ => Except JsError Bool
  | .readdirSync _ => Except JsError (List JsString)
  | _ => Except JsError Unit

def succeeds {α : Type} : Except JsError α → Bool
  | .ok _ => true
  | .error _ => false

/-- The error a build ends with: that of its stream, or of its first event that
has one. -/
def BuildOutput.failure (output : BuildOutput) : Option JsError :=
  output.error.or ((output.events.find? fun event => event.error.any (· != [])).map fun event =>
    .error (event.error.getD (js "Build failed")))

/-- A step fails when a process does not exit with 0 or an exception is thrown. -/
def Call.succeeds : (c : Call) → c.Reply → Bool
  | .runSync .., reply => decide (CliResult.status reply = some 0)
  | .run .., reply => match CliRun.ending reply with
    | .ok code => decide (code = some 0)
    | .error _ => false
  | .inspectContainer _, reply => Docker.succeeds (α := Bool) reply
  | .buildImage .., reply => match (reply : Except JsError BuildOutput) with
    | .ok output => output.failure.isNone
    | .error _ => false
  | .existsSync _, _ => true
  | .isDirectory _, reply => Docker.succeeds (α := Bool) reply
  | .readdirSync _, reply => Docker.succeeds (α := List JsString) reply
  | .stopContainer _, reply => Docker.succeeds (α := Unit) reply
  | .restartContainer _, reply => Docker.succeeds (α := Unit) reply
  | .startContainer _, reply => Docker.succeeds (α := Unit) reply
  | .removeContainer _, reply => Docker.succeeds (α := Unit) reply
  | .createContainer _, reply => Docker.succeeds (α := Unit) reply
  | .removeImage _, reply => Docker.succeeds (α := Unit) reply
  | .mkdirSync _, reply => Docker.succeeds (α := Unit) reply
  | .rmSync _, reply => Docker.succeeds (α := Unit) reply
  | .chmodSync _, reply => Docker.succeeds (α := Unit) reply
  | .writeFileSync .., reply => Docker.succeeds (α := Unit) reply

theorem ending_of_succeeds {args : List JsString} {cwd : Option JsString} {process : CliRun}
    (h : (Call.run args cwd).succeeds process = true) : process.ending = .ok (some 0) := by
  obtain ⟨chunks, ending⟩ := process
  cases ending with
  | ok code => exact congrArg Except.ok (of_decide_eq_true h)
  | error e => cases h

/-! ## Memory and database -/

/-- A tracked service, under the name docker knows it by. -/
structure Service where
  serviceName : JsString
  deployPreset : JsString
deriving DecidableEq

inductive RowStatus where
  | running | stopped | restart | deleted | removed
deriving DecidableEq

/-- The fields of a row of `Services` that these services touch. -/
structure ServiceRow where
  idx : ℤ
  serviceStatus : RowStatus
  serviceLastOnline : ℤ
deriving DecidableEq

/-- The operations on the agent's own maps, on the socket to the Hub and on the
database, and the reading of the clock. -/
inductive BookOp where
  | now
  | track (serviceIndex : ℤ) (service : Service)
  | tracked
  | storeSnapshot (snapshot : ContainerSnapshot)
  | emit (emission : Emission)
  /-- An update of the rows that is sent off and not waited for. -/
  | sendUpdate (idx : ℤ) (status : RowStatus) (lastOnline : ℤ)
  /-- The wait for a promise that is settled already: whatever else is due goes
  first. -/
  | turn
  | findMarker (serviceIndex : ℤ) (containerName : JsString) (event : MarkerEvent) (gte lte : ℤ)
  | createMarker (marker : Marker)
  | deleteMarkers (serviceIndex : ℤ)
  | deleteServices (idx : ℤ)
  | updateServices (idx : ℤ) (status : RowStatus) (lastOnline : ℤ)

/-- What the database is asked may be rejected. -/
abbrev BookOp.Reply : BookOp → Type
  | .now => ℤ
  | .tracked => InsertionMap ℤ Service
  | .findMarker .. => Except JsError Bool
  | .createMarker _ | .deleteMarkers _ | .deleteServices _ | .updateServices .. =>
      Except JsError Unit
  | .track .. | .storeSnapshot _ | .emit _ | .sendUpdate .. | .turn => Unit

/-- The reply of a database that rejects the operation. -/
def BookOp.rejected (e : JsError) : (op : BookOp) → Option op.Reply
  | .findMarker .. | .createMarker _ | .deleteMarkers _ | .deleteServices _
  | .updateServices .. => some (.error e)
  | .now | .track .. | .tracked | .storeSnapshot _ | .emit _ | .sendUpdate .. | .turn => none

inductive Op where
  | books (op : BookOp)
  | call (c : Call)

abbrev Op.Reply : Op → Type
  | .books op => op.Reply
  | .call c => c.Reply

abbrev Agent (α : Type) := Program Op Op.Reply JsError α

namespace Agent

/-- `Date.now()`. -/
def now : Agent ℤ :=
  Program.ask (Op.books .now)

def track (serviceIndex : ℤ) (service : Service) : Agent Unit :=
  Program.ask (Op.books (.track serviceIndex service))

def tracked : Agent (InsertionMap ℤ Service) :=
  Program.ask (Op.books .tracked)

def storeSnapshot (snapshot : ContainerSnapshot) : Agent Unit :=
  Program.ask (Op.books (.storeSnapshot snapshot))

/-- `emitToHub`. -/
def emitToHub (emission : Emission) : Agent Unit :=
  Program.ask (Op.books (.emit emission))

def call (c : Call) : Agent c.Reply :=
  Program.ask (Op.call c)

/-- An update of the rows that nobody waits for. -/
def sendUpdate (idx : ℤ) (status : RowStatus) (lastOnline : ℤ) : Agent Unit :=
  Program.ask (Op.books (.sendUpdate idx status lastOnline))

/-- A call that throws. -/
def await {β : Type} (reply : Except JsError β) : Agent β :=
  match reply with
  | .ok b => pure b
  | .error e => throw e

/-- `await` of an asynchronous method of the agent: when its promise is settled,
what is due already goes first. -/
def awaited {α : Type} (method : Agent α) : Agent α := do
  let a ← method
  Program.ask (Op.books .turn)
  pure a

end Agent

/-- `HubEmit`: what a caller does with an emission. -/
abbrev HubEmit := Emission → Agent Unit

/-- Operations on the agent's side only. -/
def BooksOnly : Op → Prop
  | .books _ => True
  | .call _ => False

/-- Operations on docker and the file system only. -/
def CallsOnly : Op → Prop
  | .books _ => False
  | .call _ => True

/-! ## The docker CLI and the emitters -/

open Agent

def DockerCli.runSync (args : List JsString) (cwd : Option JsString) : Agent CliResult :=
  call (.runSync args cwd)

/-- `lines.forEach(sendLine)`. -/
def forEachLine (sendLine : JsString → Agent Unit) : List JsString → Agent Unit
  | [] => pure ()
  | line :: rest => do
      sendLine line
      forEachLine sendLine rest

theorem all_forEachLine {P : Op → Prop} {sendLine : JsString → Agent Unit}
    (hline : ∀ line, (sendLine line).All P) (lines : List JsString) :
    (forEachLine sendLine lines).All P := by
  induction lines with
  | nil => exact .pure ()
  | cons line rest ih => exact .bind (hline line) fun _ => ih

theorem all_awaited {P : Op → Prop} {α : Type} {method : Agent α} (hturn : P (.books .turn))
    (h : method.All P) : (awaited method).All P :=
  .bind h fun a => .bind (.ask hturn) fun _ => .pure a

/-- A message about a quoted name. -/
def about (before name after : JsString) : JsString := before ++ js "'" ++ name ++ js "'" ++ after

/-- The text of an exit code in a message. -/
def codeText : Option ℤ → JsString
  | none => js "null"
  | some code => (Number.ofInt code).toText

/-- `DockerCli.run`. -/
def DockerCli.run (args : List JsString) (label : JsString) (cwd : Option JsString)
    (onLine : JsString → Agent Unit) : Agent Unit := do
  let process ← call (.run args cwd)
  forEachLine onLine (process.chunks.flatMap fun chunk => outputLines (utf8Text chunk))
  match process.ending with
  | .error e => throw e
  | .ok code =>
      if code = some 0 then pure ()
      else throw (.error (label ++ js " exited with code " ++ codeText code))

/-- The `sendLog` of `createServiceLogEmitter`. -/
def sendLog (emit : HubEmit) (serviceIndex : ℤ) (containerName : JsString) (stream : LogOrigin)
    (line : JsString) : Agent Unit := do
  let time ← now
  emit (.serviceLog serviceIndex
    { log := line, timestamp := toISOString time, stream := stream, containerName := containerName })

/-- The `sendStatus` of `createServiceStatusEmitter`. -/
def sendStatus (emit : HubEmit) (serviceIndex : ℤ) (status : ServiceStatus) : Agent Unit :=
  emit (.serviceStatus serviceIndex status)

/-! ## One run against a host -/

/-- Answers every call from the state of the world, and changes it. -/
abbrev Host (W : Type) := (c : Call) → W → c.Reply × W

/-- An update of the rows on its way to the database. -/
structure RowUpdate where
  idx : ℤ
  status : RowStatus
  lastOnline : ℤ
deriving DecidableEq

/-- `services.updateMany` for the rows of one index. -/
def RowUpdate.apply (update : RowUpdate) (services : List ServiceRow) : List ServiceRow :=
  services.map fun row =>
    if row.idx = update.idx then
      { row with serviceStatus := update.status, serviceLastOnline := update.lastOnline }
    else row

/-- What the agent keeps: its maps, its database rows, the updates on their way to
them, and what it emitted. The clock gives a time for every reading of it. -/
structure Books where
  clock : ℕ → ℤ := fun _ => 0
  readings : ℕ := 0
  tracked : InsertionMap ℤ Service := {}
  snapshots : InsertionMap ℤ ContainerSnapshot := {}
  services : List ServiceRow := []
  updates : List RowUpdate := []
  markers : List Marker := []
  emitted : List Emission := []

/-- The world, the books, and every call made with whether it succeeded. -/
structure Session (W : Type) where
  world : W
  books : Books := {}
  calls : List (Call × Bool) := []

namespace Books

/-- The operation, on a database that rejects nothing. -/
def perform : (op : BookOp) → Books → op.Reply × Books
  | .now, b => (b.clock b.readings, { b with readings := b.readings + 1 })
  | .track i service, b => ((), { b with tracked := b.tracked.set i service })
  | .tracked, b => (b.tracked, b)
  | .storeSnapshot snapshot, b =>
      ((), { b with snapshots := b.snapshots.set snapshot.serviceIndex snapshot })
  | .emit emission, b => ((), { b with emitted := b.emitted ++ [emission] })
  | .sendUpdate i status lastOnline, b =>
      ((), { b with updates := b.updates ++ [⟨i, status, lastOnline⟩] })
  | .turn, b => ((), b)
  | .findMarker i containerName event gte lte, b =>
      (.ok (b.markers.any fun m => m.serviceIndex = i && m.containerName = containerName &&
        m.event = event && gte ≤ m.timestamp && m.timestamp ≤ lte), b)
  | .createMarker marker, b => (.ok (), { b with markers := b.markers ++ [marker] })
  | .deleteMarkers i, b =>
      (.ok (), { b with markers := b.markers.filter fun m => m.serviceIndex ≠ i })
  | .deleteServices i, b =>
      (.ok (), { b with services := b.services.filter fun row => row.idx ≠ i })
  | .updateServices i status lastOnline, b =>
      (.ok (), { b with services := RowUpdate.apply ⟨i, status, lastOnline⟩ b.services })

end Books

variable {W : Type}

def Session.perform (host : Host W) : (op : Op) → Session W → op.Reply × Session W
  | .books op, s => ((Books.perform op s.books).1, { s with books := (Books.perform op s.books).2 })
  | .call c, s =>
      let answer := host c s.world
      (answer.1,
        { s with world := answer.2, calls := s.calls ++ [(c, c.succeeds answer.1)] })

/-- A program run to its end. -/
def Session.run {α : Type} (host : Host W) (p : Agent α) (s : Session W) :
    Except JsError α × Session W :=
  Program.run (Session.perform host) p s

/-- Nothing else is due in a run alone. -/
theorem Session.run_awaited {α : Type} (host : Host W) (p : Agent α) (s : Session W) :
    s.run host (awaited p) = s.run host p := by
  cases hp : (s.run host p).1 with
  | ok a =>
      rw [Session.run, awaited, Program.run_bind_of_ok hp]
      exact Prod.ext hp.symm rfl
  | error e =>
      rw [Session.run, awaited, Program.run_bind_of_error hp]
      exact Prod.ext hp.symm rfl

/-- A host without docker and with an empty file system, for trials. -/
def bareHost : Host Unit := fun c world =>
  (match c with
    | .runSync .. => ⟨none, [], []⟩
    | .run .. => ⟨[], .error (.error (js "spawn docker ENOENT"))⟩
    | .existsSync _ => false
    | .inspectContainer _ | .buildImage .. | .isDirectory _ | .readdirSync _ | .stopContainer _
    | .restartContainer _ | .startContainer _ | .removeContainer _ | .createContainer _
    | .removeImage _ | .mkdirSync _ | .rmSync _ | .chmodSync _ | .writeFileSync .. =>
        .error (.error (js "connect ENOENT /var/run/docker.sock")), world)

/-- The answers of a docker and a file system that do whatever they are told,
where no container runs, for trials. -/
def willingAnswer : (c : Call) → c.Reply
  | .runSync .. => ⟨some 0, [], []⟩
  | .run .. => ⟨[], .ok (some 0)⟩
  | .inspectContainer _ => .ok false
  | .buildImage .. => .ok ⟨[], none⟩
  | .existsSync _ => true
  | .isDirectory _ => .ok true
  | .readdirSync _ => .ok []
  | .stopContainer _ | .restartContainer _ | .startContainer _ | .removeContainer _
  | .createContainer _ | .removeImage _ | .mkdirSync _ | .rmSync _ | .chmodSync _
  | .writeFileSync .. => .ok ()

end OpticsAgent.Docker
