import Mathlib
import OpticsAgent.Docker.Effects
import OpticsAgent.Node.Path

/-!
`ContainerInspectService`: what docker says about the containers of a service,
and the reading of docker's JSON output and status texts it rests on. The
queries only read, so none of them touches the agent's own books.
-/

namespace OpticsAgent.Docker

open OpticsAgent.Ecma OpticsAgent.Node OpticsAgent.Lib Agent

/-- The configuration the services read at start. -/
structure Settings where
  casing : CaseMapping
  buildRoot : JsString
  cwd : JsString
  agentRuntime : Option JsString
  buildVolume : Option JsString
  user : Option (ℕ × ℕ)

/-- An agent that runs on a host, for trials. -/
def hostSettings : Settings where
  casing := asciiCase
  buildRoot := js "/data/build"
  cwd := js "/agent"
  agentRuntime := none
  buildVolume := none
  user := none

/-- `JSON.parse` of the whole output, or of each of its lines. -/
def parseJsonOutput (output : JsString) : List JsValue :=
  let trimmed := trim output
  if trimmed = [] then []
  else
    match parseJson trimmed with
    | some (.arr items) => items
    | some parsed => [parsed]
    | none => (((splitUnit 10 trimmed).map trim).filter (· != [])).filterMap parseJson

/-! ## `container-status.util.ts` -/

/-- `toLowerCase` on a value that is typed as a string and comes from JSON. -/
def lowerText (casing : CaseMapping) : JsValue → Except JsError JsString
  | .str s => .ok (casing.toLowerCase s)
  | .undefined => .error (.typeError (js "Cannot read properties of undefined"))
  | .null => .error (.typeError (js "Cannot read properties of null"))
  | _ => .error (.typeError (js "toLowerCase is not a function"))

/-- `state` is typed as a string and may be any JSON value. -/
def normalizeContainerStatus (casing : CaseMapping) (state : JsValue) (exitCode : Option Number)
    (health : Option JsString) : Except JsError ContainerStatus := do
  let normalizedState ← lowerText casing (state.orElse (.str []))
  let normalizedHealth := casing.toLowerCase (health.getD [])
  if normalizedState = js "removing" ∨ normalizedState = js "removed" then pure .removed
  else if normalizedState = js "created" ∨ normalizedState = js "restarting" then pure .starting
  else if normalizedState = js "running" then
    if normalizedHealth = js "unhealthy" then pure .failed
    else if normalizedHealth = js "starting" then pure .starting
    else pure .running
  else if normalizedState = js "exited" ∨ normalizedState = js "dead" then
    pure (if exitCode.any fun code => (JsValue.num code).truthy then .failed else .stopped)
  else pure .stopped

def healthFromStatus (casing : CaseMapping) (status : JsValue) :
    Except JsError (Option JsString) := do
  if !status.truthy then pure none
  else
    let lower ← lowerText casing status
    if includes lower (js "unhealthy") then pure (some (js "unhealthy"))
    else if includes lower (js "health: starting") || includes lower (js "(health: starting)") then
      pure (some (js "starting"))
    else if includes lower (js "healthy") then pure (some (js "healthy"))
    else pure none

def labelsToRecord (labels : JsString) : Props JsString :=
  if labels = [] then []
  else
    buildProps (((splitUnit 44 labels).map (splitUnit 61)).filterMap fun parts =>
      match parts with
      | [] => none
      | key :: value => if key = [] then none else some (key, [61].intercalate value))

/-! ## The service -/

variable (settings : Settings)

/-- `s.replace(/^\//, '')`. -/
def dropSlash : JsString → JsString
  | 47 :: rest => rest
  | s => s

/-- `typeof value === 'number' ? value : null`. -/
def numberOrNull : JsValue → Option Number
  | .num x => some x
  | _ => none

/-- `typeof value === 'string' ? value : null`. -/
def stringOrNull : JsValue → Option JsString
  | .str s => some s
  | _ => none

/-- One container of `docker inspect`. -/
def inspectedState (serviceName : JsString) (container : JsValue) :
    Except JsError ContainerState := do
  let state := (← container.member (js "State")).orElse (.obj [])
  let exitCode := numberOrNull (← state.member (js "ExitCode"))
  let healthField ← state.member (js "Health")
  let healthStatus ← match healthField with
    | .undefined => pure JsValue.undefined
    | .null => pure JsValue.undefined
    | field => field.member (js "Status")
  let health := stringOrNull healthStatus
  let name ← container.member (js "Name")
  let status ← normalizeContainerStatus settings.casing (← state.member (js "Status")) exitCode
    health
  pure
    { name := if name.truthy then dropSlash name.toText else serviceName
      status := status
      exitCode := exitCode
      health := health }

def inspectDockerfileContainer (serviceName : JsString) : Agent (List ContainerState) := do
  let result ← DockerCli.runSync [js "inspect", serviceName] none
  if result.status ≠ some 0 then pure []
  else await ((parseJsonOutput result.stdout).mapM (inspectedState settings serviceName))

/-- One row of `compose ps --format json`. -/
def composeRow (row : JsValue) : Except JsError ContainerState := do
  let code ← row.member (js "ExitCode")
  let exitCode := match code with
    | .num x => some x
    | code => if code.toNumber.isFinite then some code.toNumber else none
  let healthField ← row.member (js "Health")
  let health ← match healthField with
    | .str s => pure (some s)
    | _ => healthFromStatus settings.casing (← row.member (js "Status"))
  let name := ((((← row.member (js "Name")).orElse (← row.member (js "Names"))).orElse
    (← row.member (js "ID"))).orElse (.str []))
  let service ← row.member (js "Service")
  let status ← normalizeContainerStatus settings.casing (← row.member (js "State")) exitCode health
  pure
    { name := name.toText
      service := if service.truthy then some service.toText else none
      status := status
      exitCode := exitCode
      health := health }

/-- One row of `docker ps`. -/
def psRow (row : JsValue) : Except JsError ContainerState := do
  let labelsField ← row.member (js "Labels")
  let labels := labelsToRecord (if labelsField.truthy then labelsField.toText else [])
  let statusField ← row.member (js "Status")
  let health ← healthFromStatus settings.casing
    (if statusField.truthy then .str statusField.toText else .undefined)
  let stateField ← row.member (js "State")
  let status ← normalizeContainerStatus settings.casing
    (if stateField.truthy then .str stateField.toText else .undefined) none health
  pure
    { name := ((← row.member (js "Names")).orElse (.str [])).toText
      service := ownValue labels (js "com.docker.compose.service")
      status := status
      exitCode := none
      health := health }

def namedOnly (containers : List ContainerState) : List ContainerState :=
  containers.filter (·.name != [])

def composePsArgs (projectName : JsString) : List JsString :=
  [js "compose", js "-p", projectName, js "ps", js "-a", js "--format", js "json"]

def projectPsArgs (projectName : JsString) : List JsString :=
  [js "ps", js "-a", js "--filter", js "label=com.docker.compose.project=" ++ projectName,
    js "--format", js "\x7b\x7bjson .\x7d\x7d"]

/-- The list found by the project label, for when `compose ps` gives none. -/
def listByLabel (projectName : JsString) : Agent (List ContainerState) := do
  let psResult ← DockerCli.runSync (projectPsArgs projectName) none
  if psResult.status ≠ some 0 then pure []
  else
    let containers ← await ((parseJsonOutput psResult.stdout).mapM (psRow settings))
    pure (namedOnly containers)

def listComposeContainers (projectName : JsString) : Agent (List ContainerState) := do
  let buildDir := Path.join [settings.buildRoot, projectName]
  if ← call (.existsSync buildDir) then
    let composeResult ← DockerCli.runSync (composePsArgs projectName) (some buildDir)
    let composeRows := parseJsonOutput composeResult.stdout
    if composeResult.status = some 0 ∧ composeRows ≠ [] then
      let containers ← await (composeRows.mapM (composeRow settings))
      pure (namedOnly containers)
    else listByLabel settings projectName
  else listByLabel settings projectName

def getContainerSnapshot (serviceName deployPreset : JsString) : Agent (List ContainerState) :=
  if isComposePreset settings.casing deployPreset then listComposeContainers settings serviceName
  else inspectDockerfileContainer settings serviceName

/-! ## The queries only look -/

/-- A docker command that is waited for, or a look at the file system. -/
def Looks : Op → Prop
  | .call (.runSync ..) | .call (.existsSync _) => True
  | _ => False

theorem Looks.callsOnly {op : Op} (h : Looks op) : CallsOnly op := by
  cases op with
  | books op => exact h.elim
  | call c => trivial

theorem all_await {α : Type} (P : Op → Prop) (reply : Except JsError α) : (await reply).All P := by
  cases reply with
  | ok a => exact .pure a
  | error e => exact .throw e

theorem looks_listByLabel (projectName : JsString) :
    (listByLabel settings projectName).All Looks := by
  refine .bind (.ask trivial) fun result => ?_
  split_ifs
  · exact .pure _
  · exact .bind (all_await Looks _) fun _ => .pure _

theorem looks_listComposeContainers (projectName : JsString) :
    (listComposeContainers settings projectName).All Looks := by
  refine .bind (.ask trivial) fun found => ?_
  split_ifs
  · refine .bind (.ask trivial) fun result => ?_
    dsimp only
    split_ifs
    · exact .bind (all_await Looks _) fun _ => .pure _
    · exact looks_listByLabel settings projectName
  · exact looks_listByLabel settings projectName

theorem looks_getContainerSnapshot (serviceName deployPreset : JsString) :
    (getContainerSnapshot settings serviceName deployPreset).All Looks := by
  unfold getContainerSnapshot
  split_ifs
  · exact looks_listComposeContainers settings serviceName
  · refine .bind (.ask trivial) fun result => ?_
    split_ifs
    · exact .pure _
    · exact all_await Looks _

theorem callsOnly_getContainerSnapshot (serviceName deployPreset : JsString) :
    (getContainerSnapshot settings serviceName deployPreset).All CallsOnly :=
  (looks_getContainerSnapshot settings serviceName deployPreset).mono fun _ => Looks.callsOnly

end OpticsAgent.Docker
