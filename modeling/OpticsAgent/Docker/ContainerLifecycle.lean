import Mathlib
import OpticsAgent.Docker.BuildWorkspace

/-!
`ContainerLifeCycleService`: stopping, starting, restarting and deleting a
service or one of its containers. Every function catches what its docker steps
throw, reports it, and returns normally.
-/

namespace OpticsAgent.Docker

open OpticsAgent.Ecma OpticsAgent.Node OpticsAgent.Lib Agent

inductive DeleteScope where
  | containers | service
deriving DecidableEq

variable (settings : Settings)

def stopService (serviceIndex : ℤ) (serviceName deployPreset : JsString) (emit : HubEmit) :
    Agent Unit := do
  let si := toDockerName settings.casing serviceName
  let log := sendLog emit serviceIndex si .lifecycle
  let isCompose := settings.casing.toUpperCase deployPreset != js "DOCKERFILE"
  try
    log (about (js "Stopping service ") si (js "..."))
    if isCompose then
      DockerCli.run [js "compose", js "-p", si, js "stop"] (js "docker compose stop") none log
    else await (← call (.stopContainer si))
    sendStatus emit serviceIndex .stopped
    log (about (js "Service ") si (js " stopped successfully."))
  catch e =>
    sendStatus emit serviceIndex .failed
    log (js "ERROR: " ++ e.text)

/-- One call on one container: `startContainer`, `stopContainer` and
`restartContainer` differ in the call and the words. -/
def containerAction (serviceIndex : ℤ) (containerName : JsString) (emit : HubEmit)
    (action : Agent (Except JsError Unit)) (doing done : JsString) : Agent Unit := do
  let log := sendLog emit serviceIndex containerName .lifecycle
  try
    log (about (doing ++ js " container ") containerName (js "..."))
    await (← action)
    log (about (js "Container ") containerName (js " " ++ done ++ js " successfully."))
  catch e => log (js "ERROR: " ++ e.text)

def startContainer (serviceIndex : ℤ) (containerName : JsString) (emit : HubEmit) : Agent Unit :=
  containerAction serviceIndex containerName emit (call (.startContainer containerName))
    (js "Starting") (js "started")

def stopContainer (serviceIndex : ℤ) (containerName : JsString) (emit : HubEmit) : Agent Unit :=
  containerAction serviceIndex containerName emit (call (.stopContainer containerName))
    (js "Stopping") (js "stopped")

def restartContainer (serviceIndex : ℤ) (containerName : JsString) (emit : HubEmit) :
    Agent Unit :=
  containerAction serviceIndex containerName emit (call (.restartContainer containerName))
    (js "Restarting") (js "restarted")

def restartService (serviceIndex : ℤ) (serviceName deployPreset : JsString) (emit : HubEmit) :
    Agent Unit := do
  let si := toDockerName settings.casing serviceName
  let log := sendLog emit serviceIndex si .lifecycle
  let isCompose := settings.casing.toUpperCase deployPreset != js "DOCKERFILE"
  try
    sendStatus emit serviceIndex .restarting
    log (about (js "Restarting service ") si (js "..."))
    if isCompose then
      DockerCli.run [js "compose", js "-p", si, js "restart"] (js "docker compose restart") none log
    else await (← call (.restartContainer si))
    sendStatus emit serviceIndex .running
    log (about (js "Service ") si (js " restarted successfully."))
  catch e =>
    sendStatus emit serviceIndex .failed
    log (js "ERROR: " ++ e.text)

def composeDownArgs (si : JsString) : DeleteScope → List JsString
  | .service => [js "compose", js "-p", si, js "down", js "--rmi", js "all", js "--volumes"]
  | .containers => [js "compose", js "-p", si, js "down"]

/-- The image of a Dockerfile service; a failure is taken for a missing image. -/
def removeServiceImage (si : JsString) (log : JsString → Agent Unit) : Agent Unit := do
  try
    await (← call (.removeImage si))
    log (about (js "Image ") si (js " removed."))
  catch _ => log (about (js "No image found for ") si (js ", skipping."))

/-- The container of a Dockerfile service, stopped first when it runs. -/
def removeServiceContainer (si : JsString) (log : JsString → Agent Unit) : Agent Unit := do
  let running ← await (← call (.inspectContainer si))
  if running then
    log (about (js "Stopping container ") si (js "..."))
    await (← call (.stopContainer si))
  await (← call (.removeContainer si))
  log (about (js "Container ") si (js " removed."))

/-- The removal steps, up to the status that reports them. -/
def removeService (si : JsString) (isCompose : Bool) (deleteScope : DeleteScope)
    (log : JsString → Agent Unit) : Agent Unit := do
  if isCompose then
    DockerCli.run (composeDownArgs si deleteScope) (js "docker compose down") none log
  else
    removeServiceContainer si log
    if deleteScope = .service then removeServiceImage si log
  if deleteScope = .service then
    removeBuildDir settings (Path.join [settings.buildRoot, si]) log

def deleteService (serviceIndex : ℤ) (serviceName deployPreset : JsString)
    (deleteScope : DeleteScope) (emit : HubEmit) : Agent Unit := do
  let si := toDockerName settings.casing serviceName
  let log := sendLog emit serviceIndex si .lifecycle
  let isCompose := settings.casing.toUpperCase deployPreset != js "DOCKERFILE"
  try
    log (about (js "Deleting service ") si (js "..."))
    removeService settings si isCompose deleteScope log
    sendStatus emit serviceIndex .removed
    log (about (js "Service ") si (js " deleted successfully."))
  catch e =>
    sendStatus emit serviceIndex .failed
    log (js "ERROR: " ++ e.text)

end OpticsAgent.Docker
