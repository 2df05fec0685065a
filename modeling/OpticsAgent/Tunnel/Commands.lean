import Mathlib
import OpticsAgent.Lib.Machine
import OpticsAgent.Service.ServiceLifecycle

/-!
The `command` handler of the tunnel, for the commands that deploy, run and
delete services, and the system in which such commands and docker events are
handled at the same time. The log commands change none of the maps and rows
below, they are with the log service; the snapshot STREAM_LOG sends is the one
that is kept.

In the system every command and every docker event is a task. A task runs
without interruption until it has to wait, for docker, for the file system, for
the database or for a method of its own that has settled; which task goes on
next, and with which answer, is open.

What else can use docker in the process is not in the system: the deployment
that `POST /v1/service/deploy` asks for, which tells nobody of its progress, and
the update of the agent itself.
-/

namespace OpticsAgent.Tunnel

open OpticsAgent.Ecma OpticsAgent.Lib OpticsAgent.Docker OpticsAgent.Docker.Agent
open OpticsAgent.Service

/-! ## The commands -/

structure ServicePayload where
  serviceIndex : ℤ
  serviceName : JsString
  deployPreset : JsString
deriving DecidableEq

inductive Command where
  | deploy (data : DeployCommand)
  | redeploy (data : DeployCommand)
  | start (payload : ServicePayload)
  | stop (payload : ServicePayload)
  | containerStart (payload : ServicePayload) (containerName : JsString)
  | containerStop (payload : ServicePayload) (containerName : JsString)
  | containerRestart (payload : ServicePayload) (containerName : JsString)
  | delete (payload : ServicePayload) (deleteScope : DeleteScope)
  | syncContainerStatus (payload : ServicePayload)
deriving DecidableEq

/-- The service a command names. -/
def Command.serviceIndex : Command → ℤ
  | .deploy data | .redeploy data => data.serviceIndex
  | .start payload | .stop payload | .containerStart payload _ | .containerStop payload _
  | .containerRestart payload _ | .delete payload _ | .syncContainerStatus payload =>
      payload.serviceIndex

variable (settings : Settings)

/-- An index is an integer Number here; a payload that fails is ignored. -/
def getServiceCommandPayload (payload : ServicePayload) : Option ServicePayload :=
  if payload.serviceIndex < 1 ∨ payload.serviceName = [] ∨ payload.deployPreset = [] then none
  else some payload

/-- The callback of DEPLOY and REDEPLOY: everything goes to the Hub as it is. -/
def deployEmit : HubEmit
  | .serviceStatus i status => do
      emitToHub (.serviceStatus i status)
      updateServiceStatus i status
  | emission => emitToHub emission

/-- The callback of START, STOP and the container commands. -/
def serviceEmit (serviceIndex : ℤ) : HubEmit
  | .serviceStatus _ status => do
      emitToHub (.serviceStatus serviceIndex status)
      updateServiceStatus serviceIndex status
  | .serviceLog _ entry => emitToHub (.serviceLog serviceIndex entry)
  | _ => pure ()

/-- The callback of DELETE, which leaves the row to `v1DeleteService`. -/
def deleteEmit (serviceIndex : ℤ) : HubEmit
  | .serviceStatus _ status => emitToHub (.serviceStatus serviceIndex status)
  | .serviceLog _ entry => emitToHub (.serviceLog serviceIndex entry)
  | _ => pure ()

def handleDeploy (data : DeployCommand) (event : MarkerEvent) : Agent Unit := do
  awaited (createServiceSessionMarker data.serviceIndex data.serviceName event)
  initContainerStates settings data.serviceIndex (toDockerName settings.casing data.serviceName)
    data.deployPreset
  v1DeployService settings data deployEmit

/-- A command between two looks at the containers. -/
def betweenSyncs (payload : ServicePayload) (fallback : ContainerStatus) (action : Agent Unit) :
    Agent Unit := do
  let _ ← awaited (syncContainerStatus settings payload.serviceIndex payload.serviceName
    payload.deployPreset .stopped)
  awaited action
  let _ ← syncContainerStatus settings payload.serviceIndex payload.serviceName
    payload.deployPreset fallback

def handleStart (payload : ServicePayload) : Agent Unit := do
  awaited (createServiceSessionMarker payload.serviceIndex payload.serviceName .start)
  betweenSyncs settings payload .starting
    (restartService settings payload.serviceIndex payload.serviceName payload.deployPreset
      (serviceEmit payload.serviceIndex))

def handleStop (payload : ServicePayload) : Agent Unit :=
  betweenSyncs settings payload .stopped
    (stopService settings payload.serviceIndex payload.serviceName payload.deployPreset
      (serviceEmit payload.serviceIndex))

/-- A command on one container; without a name it is ignored. -/
def handleContainer (payload : ServicePayload) (containerName : JsString)
    (fallback : ContainerStatus) (action : Agent Unit) : Agent Unit :=
  if containerName = [] then pure () else betweenSyncs settings payload fallback action

def handleDelete (payload : ServicePayload) (deleteScope : DeleteScope) : Agent Unit := do
  let _ ← awaited (syncContainerStatus settings payload.serviceIndex payload.serviceName
    payload.deployPreset .stopped)
  awaited (v1DeleteService settings payload.serviceName payload.serviceIndex payload.deployPreset
    deleteScope (deleteEmit payload.serviceIndex))
  clearContainerStates payload.serviceIndex

/-- The snapshot was sent when it was stored, and is sent once more. -/
def handleSync (payload : ServicePayload) : Agent Unit := do
  let snapshot ← awaited (Service.syncContainerStatus settings payload.serviceIndex
    payload.serviceName payload.deployPreset .stopped)
  emitToHub (.containerStatus snapshot)

/-- What is done with a payload that passes `getServiceCommandPayload`. -/
def withPayload (payload : ServicePayload) (handle : ServicePayload → Agent Unit) : Agent Unit :=
  match getServiceCommandPayload payload with
  | none => pure ()
  | some payload => handle payload

def handleCommand : Command → Agent Unit
  | .deploy data => handleDeploy settings data .deploy
  | .redeploy data => handleDeploy settings data .redeploy
  | .start payload => withPayload payload (handleStart settings)
  | .stop payload => withPayload payload (handleStop settings)
  | .containerStart payload name => withPayload payload fun payload =>
      handleContainer settings payload name .starting
        (startContainer payload.serviceIndex name (serviceEmit payload.serviceIndex))
  | .containerStop payload name => withPayload payload fun payload =>
      handleContainer settings payload name .stopped
        (stopContainer payload.serviceIndex name (serviceEmit payload.serviceIndex))
  | .containerRestart payload name => withPayload payload fun payload =>
      handleContainer settings payload name .starting
        (restartContainer payload.serviceIndex name (serviceEmit payload.serviceIndex))
  | .delete payload deleteScope => withPayload payload fun payload =>
      handleDelete settings payload deleteScope
  | .syncContainerStatus payload => withPayload payload (handleSync settings)

/-! ## Commands and docker events at the same time -/

abbrev ContainerId := ℕ

/-- What a task was started for. -/
inductive Origin where
  | command (c : Command)
  | event (container : ContainerId)
deriving DecidableEq

structure Task where
  origin : Origin
  program : Agent Unit

/-- An emission with the task that made it. -/
structure Report where
  task : ℕ
  origin : Origin
  emission : Emission

/-- The books, the tasks in the order they were started in, the reports, and
every container docker ever created, under its name. -/
structure System where
  books : Books := {}
  tasks : List Task := []
  reports : List Report := []
  containers : List (ContainerId × JsString) := []

/-- What happens: a command arrives, docker creates a container, an event of a
container arrives, or the answer a task waits for, the database rejects what a
task waits for, or one of the updates nobody waits for is done or rejected. -/
inductive Happening where
  | command (c : Command)
  | created (container : ContainerId) (name : JsString)
  | docker (container : ContainerId) (status : EventStatus) (timestamp action : JsString)
      (exitCode : Option JsString)
  | resume (task : ℕ) (answer : (c : Call) → c.Reply)
  | reject (task : ℕ) (error : JsError)
  | updated (update : ℕ) (done : Bool)

/-- The operations a task does not wait for. -/
def memory : (op : Op) → Option (Books → op.Reply × Books)
  | .books .now => some (Books.perform .now)
  | .books (.track i service) => some (Books.perform (.track i service))
  | .books .tracked => some (Books.perform .tracked)
  | .books (.storeSnapshot snapshot) => some (Books.perform (.storeSnapshot snapshot))
  | .books (.emit emission) => some (Books.perform (.emit emission))
  | .books (.sendUpdate i status lastOnline) =>
      some (Books.perform (.sendUpdate i status lastOnline))
  | _ => none

namespace System

/-- Runs a task as far as it goes: what is left of it, the books, and what it
emitted. -/
def settled (program : Agent Unit) (books : Books) : Agent Unit × Books :=
  program.settle memory { books with emitted := [] }

def reported (task : ℕ) (origin : Origin) (books : Books) : List Report :=
  books.emitted.map fun emission => ⟨task, origin, emission⟩

def spawn (s : System) (origin : Origin) (program : Agent Unit) : System :=
  let (left, books) := settled program s.books
  { s with
    books := books
    tasks := s.tasks ++ [⟨origin, left⟩]
    reports := s.reports ++ reported s.tasks.length origin books }

def continueWith (s : System) (k : ℕ) (origin : Origin) (program : Agent Unit) (books : Books) :
    System :=
  let (left, books) := settled program books
  { s with
    books := books
    tasks := s.tasks.set k ⟨origin, left⟩
    reports := s.reports ++ reported k origin books }

def nameOf (s : System) (container : ContainerId) : Option JsString :=
  (s.containers.find? fun entry => entry.1 = container).map Prod.snd

/-- The task goes on with its answer; the database is answered from the rows. -/
def resumeTask (s : System) (k : ℕ) (task : Task) (answer : (c : Call) → c.Reply) :
    Option System :=
  match task.program with
  | .perform (.books op) next =>
      let (reply, books) := Books.perform op s.books
      some (s.continueWith k task.origin (next reply) books)
  | .perform (.call c) next => some (s.continueWith k task.origin (next (answer c)) s.books)
  | .pure _ => none
  | .throw _ => none

/-- The task goes on with the rejection of what it asked the database for. -/
def rejectTask (s : System) (k : ℕ) (task : Task) (error : JsError) : Option System :=
  match task.program with
  | .perform (.books op) next =>
      (op.rejected error).map fun reply => s.continueWith k task.origin (next reply) s.books
  | .perform (.call _) _ => none
  | .pure _ => none
  | .throw _ => none

/-- The update is no longer on its way; when it is done the rows have changed. -/
def finishUpdate (s : System) (n : ℕ) (done : Bool) : Option System :=
  (s.books.updates[n]?).map fun update =>
    { s with books := { s.books with
        updates := s.books.updates.eraseIdx n
        services := if done then update.apply s.books.services else s.books.services } }

def step (s : System) : Happening → Option System
  | .command c => some (s.spawn (.command c) (handleCommand settings c))
  | .created container name =>
      if s.nameOf container = none then
        some { s with containers := s.containers ++ [(container, name)] }
      else none
  | .docker container status timestamp action exitCode =>
      (s.nameOf container).map fun name =>
        s.spawn (.event container) (onStatusEvent settings
          { status := status
            containerName := name
            timestamp := timestamp
            action := action
            exitCode := exitCode })
  | .resume k answer => (s.tasks[k]?).bind fun task => s.resumeTask k task answer
  | .reject k error => (s.tasks[k]?).bind fun task => s.rejectTask k task error
  | .updated n done => s.finishUpdate n done

end System

/-! ## What a task goes on with -/

/-- The happening answers what task `k` waits for with a reply, and the task goes
on from these books. -/
inductive Answered (old : Books) (k : ℕ) : Happening → (op : Op) → op.Reply → Books → Prop
  | called (answer : (c : Call) → c.Reply) (c : Call) :
      Answered old k (.resume k answer) (.call c) (answer c) old
  | performed (answer : (c : Call) → c.Reply) (op : BookOp) :
      Answered old k (.resume k answer) (.books op) (Books.perform op old).1
        (Books.perform op old).2
  | rejected (error : JsError) (op : BookOp) (reply : op.Reply)
      (h : op.rejected error = some reply) :
      Answered old k (.reject k error) (.books op) reply old

namespace System

variable {s s' : System} {k : ℕ} {task : Task}

theorem answered_of_resume {answer : (c : Call) → c.Reply}
    (h : s.resumeTask k task answer = some s') :
    ∃ op next reply books, task.program = .perform op next ∧
      Answered s.books k (.resume k answer) op reply books ∧
      s' = s.continueWith k task.origin (next reply) books := by
  unfold resumeTask at h
  split at h
  · rename_i op next hprogram
    exact ⟨_, next, _, _, hprogram, .performed answer op, (Option.some.inj h).symm⟩
  · rename_i c next hprogram
    exact ⟨_, next, _, _, hprogram, .called answer c, (Option.some.inj h).symm⟩
  · cases h
  · cases h

theorem answered_of_reject {error : JsError} (h : s.rejectTask k task error = some s') :
    ∃ op next reply books, task.program = .perform op next ∧
      Answered s.books k (.reject k error) op reply books ∧
      s' = s.continueWith k task.origin (next reply) books := by
  unfold rejectTask at h
  split at h
  · rename_i op next hprogram
    obtain ⟨reply, hreply, rfl⟩ := Option.map_eq_some_iff.mp h
    exact ⟨_, next, reply, _, hprogram, .rejected error op reply hreply, rfl⟩
  · cases h
  · cases h
  · cases h

end System

/-- The agent between the Hub and docker. -/
def serviceSystem : Machine System Happening where
  step := System.step settings

end OpticsAgent.Tunnel
