import Mathlib
import OpticsAgent.Docker.ContainerLifecycle
import OpticsAgent.Docker.Deploy

/-!
`ServiceLifecycleService`: the tracked services, the snapshots of their
containers, and what is reported about them when a command or a docker event
comes in. Tracked services are kept under the index the Hub knows them by, in
the order in which they first came.
-/

namespace OpticsAgent.Service

open OpticsAgent.Ecma OpticsAgent.Node OpticsAgent.Lib OpticsAgent.Docker OpticsAgent.Docker.Agent

variable (settings : Settings)

/-! ## Docker events -/

/-- The statuses `toStatusEvent` gives. -/
inductive EventStatus where
  | failed | stopped | removed | running | starting | restarting
deriving DecidableEq

structure DockerStatusEvent where
  status : EventStatus
  containerName : JsString
  timestamp : JsString
  action : JsString
  exitCode : Option JsString := none
deriving DecidableEq

/-- `exitCode ? ' with exit code ...' : ''`. -/
def exitText (exitCode : Option JsString) : JsString :=
  match exitCode with
  | none => []
  | some code => if code = [] then [] else js " with exit code " ++ code

/-- `messageByStatus[event.status]`. -/
def lifecycleMessage (event : DockerStatusEvent) : JsString :=
  about (js "Container ") event.containerName
    (match event.status with
      | .failed => js " stopped unexpectedly" ++ exitText event.exitCode ++ js "."
      | .stopped => js " stopped."
      | .removed => js " removed."
      | .running => js " started."
      | .starting => js " created."
      | .restarting => js " restarting.")

def emitContainerLifecycleLog (serviceIndex : ℤ) (event : DockerStatusEvent) : Agent Unit :=
  emitToHub (.serviceLog serviceIndex
    { log := lifecycleMessage event
      timestamp := event.timestamp
      stream := .lifecycle
      containerName := event.containerName
      stderr := event.status = .failed })

def containerBelongsToService (containerName serviceName : JsString) : Bool :=
  let normalized := toDockerName settings.casing serviceName
  containerName == normalized || startsWith containerName (normalized ++ js "-")

/-! ## Snapshots -/

def aggregateStatus (containers : List ContainerState) (fallback : ContainerStatus) :
    ContainerStatus :=
  if containers = [] then fallback
  else if containers.any (·.status = .failed) then .failed
  else if containers.any (·.status = .building) then .building
  else if containers.any (·.status = .starting) then .starting
  else if containers.all (·.status = .running) then .running
  else if containers.all (fun c => c.status = .stopped || c.status = .removed) then .stopped
  else .starting

def snapshotFromContainers (serviceIndex : ℤ) (containers : List ContainerState) :
    ContainerSnapshot where
  serviceIndex := serviceIndex
  containers := containers
  running := containers.countP (·.status = .running)
  total := containers.length

def emitSnapshot (snapshot : ContainerSnapshot) : Agent Unit := do
  storeSnapshot snapshot
  emitToHub (.containerStatus snapshot)

/-- `this.trackedServices.set(...)`, as every caller does it. -/
def trackService (serviceIndex : ℤ) (serviceName deployPreset : JsString) : Agent Unit :=
  track serviceIndex ⟨toDockerName settings.casing serviceName, deployPreset⟩

def emitExpectedContainers (serviceIndex : ℤ) (serviceName deployPreset : JsString)
    (services : List JsString) : Agent Unit := do
  trackService settings serviceIndex serviceName deployPreset
  let containers : List ContainerState :=
    if services ≠ [] then
      services.map fun service => { name := service, service := some service, status := .building }
    else [{ name := toDockerName settings.casing serviceName, status := .building }]
  emitSnapshot (snapshotFromContainers serviceIndex containers)

def syncContainerStatus (serviceIndex : ℤ) (serviceName deployPreset : JsString)
    (fallback : ContainerStatus) : Agent ContainerSnapshot := do
  trackService settings serviceIndex serviceName deployPreset
  let containers ← Docker.getContainerSnapshot settings (toDockerName settings.casing serviceName)
    deployPreset
  let snapshot := snapshotFromContainers serviceIndex containers
  emitSnapshot snapshot
  if containers ≠ [] ∨ fallback = .removed then
    emitToHub (.serviceStatus serviceIndex (aggregateStatus containers fallback).toServiceStatus)
  pure snapshot

def initContainerStates (serviceIndex : ℤ) (serviceName deployPreset : JsString) : Agent Unit := do
  trackService settings serviceIndex serviceName deployPreset
  emitSnapshot (snapshotFromContainers serviceIndex
    [{ name := toDockerName settings.casing serviceName, status := .building }])

def clearContainerStates (serviceIndex : ℤ) : Agent Unit := do
  let snapshot := snapshotFromContainers serviceIndex []
  storeSnapshot snapshot
  emitToHub (.containerStatus snapshot)
  emitToHub (.serviceStatus serviceIndex .removed)

/-! ## The status handler -/

/-- The loop over the tracked services, with its `break`. -/
def claimant (tracked : InsertionMap ℤ Service) (containerName : JsString) :
    Option (ℤ × Service) :=
  tracked.first fun entry => containerBelongsToService settings containerName entry.2.serviceName

/-- What is reported for an event of a container of this service. -/
def reportEvent (entry : ℤ × Service) (event : DockerStatusEvent) : Agent Unit := do
  emitContainerLifecycleLog entry.1 event
  let _ ← syncContainerStatus settings entry.1 entry.2.serviceName entry.2.deployPreset .stopped

/-- The handler `onModuleInit` registers with the docker events. -/
def onStatusEvent (event : DockerStatusEvent) : Agent Unit := do
  match claimant settings (← tracked) event.containerName with
  | none => pure ()
  | some entry => reportEvent settings entry event

/-! ## Markers, rows and the commands -/

def createServiceSessionMarker (serviceIndex : ℤ) (serviceName : JsString) (event : MarkerEvent) :
    Agent Unit := do
  let timestamp ← now
  let duplicate ← await (← Program.ask (Op.books (.findMarker serviceIndex serviceName event
    (timestamp - 2000) (timestamp + 2000))))
  if duplicate then pure ()
  else
    let marker : Marker := ⟨serviceIndex, serviceName, serviceName, event, timestamp⟩
    await (← Program.ask (Op.books (.createMarker marker)))
    emitToHub (.serviceLogMarkers serviceIndex [marker])

def rowStatus : ServiceStatus → RowStatus
  | .running => .running
  | .stopped => .stopped
  | .failed => .stopped
  | .building => .running
  | .starting => .restart
  | .removed => .removed
  | .restarting => .stopped

/-- No caller waits for it, and a rejection is only logged. -/
def updateServiceStatus (serviceIndex : ℤ) (status : ServiceStatus) : Agent Unit := do
  let lastOnline ← now
  sendUpdate serviceIndex (rowStatus status) lastOnline

/-- What becomes of the rows of a deleted service. -/
def removeRows (serviceIndex : ℤ) : DeleteScope → Agent Unit
  | .service => do await (← Program.ask (Op.books (.deleteServices serviceIndex)))
  | .containers => do
      let lastOnline ← now
      await (← Program.ask (Op.books (.updateServices serviceIndex .removed lastOnline)))

def v1DeleteService (serviceName : JsString) (serviceIndex : ℤ) (deployPreset : JsString)
    (deleteScope : DeleteScope) (emit : HubEmit) : Agent Unit := do
  awaited (deleteService settings serviceIndex serviceName deployPreset deleteScope emit)
  await (← Program.ask (Op.books (.deleteMarkers serviceIndex)))
  removeRows serviceIndex deleteScope

/-- `v1DeployService` and `v1RedeployService`: the flag they differ in is not
read. -/
def v1DeployService (request : DeployCommand) (emit : HubEmit) : Agent Unit := do
  let success ← awaited (deploy settings request emit fun services =>
    emitExpectedContainers settings request.serviceIndex request.serviceName request.deployPreset
      services)
  if success then
    let _ ← syncContainerStatus settings request.serviceIndex request.serviceName
      request.deployPreset .stopped

end OpticsAgent.Service
