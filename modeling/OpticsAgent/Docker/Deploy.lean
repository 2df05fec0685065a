import Mathlib
import OpticsAgent.Docker.BuildWorkspace

/-!
`DeployService`, with the `ImageBuildService` and the `ComposeProjectService`
it directs: remove what is there, clone, then either bring a compose project up
or build an image and run one container from it.
-/

namespace OpticsAgent.Docker

open OpticsAgent.Ecma OpticsAgent.Node OpticsAgent.Lib Agent

variable (settings : Settings)

/-! ## `ImageBuildService` -/

/-- What `followProgress` prints of one event. -/
def buildLines (event : BuildEvent) : List JsString :=
  let shown := fun (text : Option JsString) (line : JsString → JsString) =>
    match text with
    | none => []
    | some s => if s = [] then [] else [line s]
  shown event.stream trim ++ shown event.error (js "BUILD ERROR: " ++ ·)

def buildImage (buildDir tag : JsString) (sendLine : JsString → Agent Unit) : Agent Unit := do
  let src ← await (← call (.readdirSync buildDir))
  let output ← await (← call (.buildImage buildDir src tag))
  forEachLine sendLine (output.events.flatMap buildLines)
  match output.failure with
  | some e => throw e
  | none => pure ()

/-- `<port>/tcp`. -/
def portKey (port : Number) : JsString := port.toText ++ js "/tcp"

/-- `Object.entries(env).map(([k, v]) => ...)`. -/
def envLines (env : Props JsString) : List JsString :=
  env.map fun entry => entry.1 ++ js "=" ++ entry.2

def containerSpec (serviceName serviceVersion : JsString)
    (portMappings : List ServicePortMapping) (env : Option (Props JsString)) : ContainerSpec :=
  let bindings := portMappings.foldl (fun acc mapping =>
    setProp acc (portKey mapping.containerPort) mapping.hostPort.toText) []
  { image := toDockerName settings.casing serviceName ++ js ":" ++ serviceVersion
    name := toDockerName settings.casing serviceName
    env := env.map envLines
    exposedPorts := keys bindings
    portBindings := bindings
    restartPolicy := js "no"
    extraHosts := [js "host.docker.internal:host-gateway"] }

def runContainer (serviceName serviceVersion : JsString)
    (portMappings : List ServicePortMapping) (env : Option (Props JsString)) : Agent Unit := do
  let spec := containerSpec settings serviceName serviceVersion portMappings env
  await (← call (.createContainer spec))
  await (← call (.startContainer spec.name))

/-- A container that is there is stopped and removed; any failure is taken for
a missing container. -/
def removeExistingContainer (serviceName : JsString) (sendLine : JsString → Agent Unit) :
    Agent Unit := do
  let name := toDockerName settings.casing serviceName
  try
    let running ← await (← call (.inspectContainer name))
    if running then
      sendLine (about (js "Stopping existing container ") serviceName (js "..."))
      await (← call (.stopContainer name))
    sendLine (about (js "Removing existing container ") serviceName (js "..."))
    await (← call (.removeContainer name))
  catch _ => sendLine (js "No running container found. Proceeding deploy.")

/-! ## `ComposeProjectService` -/

def hasComposeFile (buildDir : JsString) : Agent Bool := do
  if ← call (.existsSync (Path.join [buildDir, js "docker-compose.yml"])) then pure true
  else call (.existsSync (Path.join [buildDir, js "docker-compose.yaml"]))

def writeEnvFile (buildDir : JsString) (data : DeployCommand) : Agent Unit := do
  let containerPort := ((resolvePortMappings data).head?.map (·.containerPort)).getD
    (data.serviceContainerPort.getD data.servicePort)
  let userEnv := data.env.getD []
  let finalEnv := if ownValue userEnv (js "PORT") = none then
    setProp userEnv (js "PORT") containerPort.toText else userEnv
  if finalEnv = [] then pure ()
  else
    await (← call (.writeFileSync (Path.join [buildDir, js ".env"])
      ([10].intercalate (envLines finalEnv))))

def overrideFailed : JsError := .error (js "Failed to generate compose restart override.")

def configArgs : List JsString := [js "compose", js "config", js "--services"]

def listServices (buildDir : JsString) (sendLine : JsString → Agent Unit) :
    Agent (List JsString) := do
  let result ← DockerCli.runSync configArgs (some buildDir)
  if result.status ≠ some 0 then
    let errorMessage := if trim result.stderr ≠ [] then trim result.stderr
      else js "docker compose config --services failed."
    sendLine (js "[ComposeProjectService] Could not resolve compose service list for restart " ++
      js "override.\n  " ++ errorMessage)
    throw overrideFailed
  else pure (((splitUnit 10 result.stdout).map trim).filter (· ≠ []))

def writeNoRestartOverride (buildDir : JsString) (sendLine : JsString → Agent Unit) :
    Agent (List JsString) := do
  let services ← listServices buildDir sendLine
  if services = [] then
    sendLine (js "[ComposeProjectService] Compose service list is empty; restart override cannot " ++
      js "be generated.")
    throw overrideFailed
  else
    let overrideContent := [10].intercalate (js "services:" ::
      services.map fun service => js "  " ++ service ++ js ":\n    restart: \"no\"") ++ js "\n"
    match ← call (.writeFileSync (Path.join [buildDir, js "docker-compose.override.yml"])
        overrideContent) with
    | .error e =>
        sendLine (js "[ComposeProjectService] Could not write compose restart override.\n  " ++
          e.text)
        throw overrideFailed
    | .ok _ =>
        sendLine (js "[ComposeProjectService] Injected restart: \"no\" override for services: " ++
          (js ", ").intercalate services)
        pure services

def composeUpArgs (projectName : JsString) : List JsString :=
  [js "compose", js "-p", projectName, js "up", js "-d", js "--build"]

def composeUp (projectName buildDir : JsString) (sendLine : JsString → Agent Unit) : Agent Unit :=
  DockerCli.run (composeUpArgs projectName) (js "docker compose") (some buildDir) sendLine

/-! ## `DeployService` -/

def shouldUseCompose (deployPreset buildDir : JsString) : Agent Bool := do
  let preset := settings.casing.toUpperCase deployPreset
  let composeFileExists ← hasComposeFile buildDir
  if preset = js "COMPOSE" && !composeFileExists then
    throw (.error (js "docker-compose.yml not found."))
  else pure (preset == js "COMPOSE" || (preset != js "DOCKERFILE" && composeFileExists))

def deployWithCompose (serviceName buildDir : JsString) (data : DeployCommand)
    (sendLine : JsString → Agent Unit) (onExpectedServices : List JsString → Agent Unit) :
    Agent Unit := do
  sendLine (js "Detected docker-compose, starting build...")
  writeEnvFile buildDir data
  let services ← writeNoRestartOverride buildDir sendLine
  onExpectedServices services
  composeUp serviceName buildDir sendLine

def deployWithDockerfile (serviceName buildDir : JsString) (data : DeployCommand)
    (sendLine : JsString → Agent Unit) (sendState : ServiceStatus → Agent Unit) : Agent Unit := do
  sendLine (js "Detected Dockerfile, starting build...")
  buildImage buildDir (serviceName ++ js ":" ++ data.serviceVersion) sendLine
  sendLine (js "Build done. Starting container...")
  sendState .starting
  runContainer settings serviceName data.serviceVersion (resolvePortMappings data) data.env

/-- Failed deployments are left in place: `preserveFailedDeployArtifacts`. -/
def cleanupFailedDeployment (sendLine : JsString → Agent Unit) : Agent Unit :=
  sendLine (js "[DeployService] Failed deploy cleanup is temporarily disabled; leaving containers " ++
    js "and build directory in place.")

/-- From the sources to the directory to build in. -/
def prepareSources (serviceName : JsString) (data : DeployCommand)
    (sendLine : JsString → Agent Unit) : Agent JsString := do
  let serviceDir := Path.join [settings.buildRoot, serviceName]
  removeExistingContainer settings serviceName sendLine
  removeBuildDir settings serviceDir sendLine
  let clonedDir ← cloneAll settings data.sourceUrl serviceDir sendLine
  let rootDirectory := primaryRootDirectory data
  let buildDir ← resolveBuildContext settings clonedDir rootDirectory
  if buildDir ≠ clonedDir then
    sendLine (js "[DeployService] Using root directory: " ++ rootDirectory.getD (js "null"))
  applyBuildPermissions buildDir
  pure buildDir

def deploy (data : DeployCommand) (emit : HubEmit)
    (onExpectedServices : List JsString → Agent Unit) : Agent Bool := do
  let serviceName := toDockerName settings.casing data.serviceName
  let log := sendLog emit data.serviceIndex serviceName .deploy
  let state := sendStatus emit data.serviceIndex
  try
    state .building
    log (js "Redeploying service " ++ serviceName ++ js "@" ++ data.serviceVersion)
    let buildDir ← prepareSources settings serviceName data log
    if ← shouldUseCompose settings data.deployPreset buildDir then
      deployWithCompose serviceName buildDir data log onExpectedServices
    else deployWithDockerfile settings serviceName buildDir data log state
    log (js "Service redeployed successfully.")
    state .running
    pure true
  catch e =>
    cleanupFailedDeployment log
    state .failed
    log (js "ERROR: " ++ e.text)
    pure false

end OpticsAgent.Docker
