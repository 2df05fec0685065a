import Mathlib
import OpticsAgent.Docker.Effects
import OpticsAgent.Ecma.Property
import OpticsAgent.Ecma.Split
import OpticsAgent.Lib.Machine
import OpticsAgent.Update.UpdateScript

/-!
`updateAgent` and `SelfInspectService`: the agent finds the directory of its own
compose project by the labels of its container, and starts an updater there. The
directory the updater works in becomes the label of the agent's next container,
so that one update decides where the next one will look.

`Host` is what docker has of an installation: the containers with their labels,
the updater, and the environment file of the project. Docker answers what it
likes; an updater is at the project when a bind mount shows the directory of the
project where the updater works.

What docker and compose do with what they are told is assumed here, the source
only relies on it. `docker run` takes its options from in front of the image; of
them `-v` with an absolute source shows that directory of the host, `-w` is where
the container works and `-e` sets a variable. Compose finds the project where its
directory is shown under its own path, and labels the containers it makes with
the project, the service and the directory it works in.
-/

namespace OpticsAgent.Update

open OpticsAgent.Ecma OpticsAgent.Node OpticsAgent.Lib
open OpticsAgent.Docker (CliResult)

/-! ## The code -/

abbrev Labels := Props JsString

inductive UpdateOp where
  | inspect (id : JsString)
  | listContainers (label : JsString)
  | runSync (args : List JsString)

/-- Containers are answered by their labels. -/
abbrev UpdateOp.Reply : UpdateOp → Type
  | .inspect _ => Except JsError (Option Labels)
  | .listContainers _ => Except JsError (List (Option Labels))
  | .runSync _ => CliResult

abbrev Updating (α : Type) := Program UpdateOp UpdateOp.Reply JsError α

def awaited {β : Type} (reply : Except JsError β) : Updating β :=
  match reply with
  | .ok b => pure b
  | .error e => throw e

/-- What the agent reads of its own process. `mountinfo` is missing where it
cannot be read. -/
structure Process where
  mountinfo : Option JsString
  hostname : JsString
  agentImage : Option JsString := none

structure ComposeProject where
  project : JsString
  workingDir : JsString
  service : JsString

def projectLabel : JsString := js "com.docker.compose.project"

def workingDirLabel : JsString := js "com.docker.compose.project.working_dir"

def serviceLabel : JsString := js "com.docker.compose.service"

def legacyUpdaterMount : JsString := js "/project"

def containersPath : JsString := js "/docker/containers/"

def isHexDigit (c : CodeUnit) : Bool :=
  (48 ≤ c.val && c.val ≤ 57) || (97 ≤ c.val && c.val ≤ 102)

/-- `[0-9a-f]{64}` behind the path and before a slash, where a text starts. -/
def containerIdAt (text : JsString) : Option JsString :=
  let rest := text.drop containersPath.length
  let id := rest.take 64
  if startsWith text containersPath && id.length == 64 && id.all isHexDigit &&
      rest[64]? == some 47 then some id
  else none

/-- The first match in a text. -/
def containerIdIn : JsString → Option JsString
  | [] => none
  | c :: rest => (containerIdAt (c :: rest)).or (containerIdIn rest)

def selfContainerId (process : Process) : JsString :=
  (process.mountinfo.bind containerIdIn).getD process.hostname

/-- A label that is there and not empty. -/
def label (labels : Labels) (key : JsString) : Option JsString :=
  (ownValue labels key).filter (· ≠ [])

def siblingDir (labels : Option Labels) : Option JsString :=
  (labels.bind fun labels => label labels workingDirLabel).filter (· ≠ legacyUpdaterMount)

def workingDirFromSiblings (project : JsString) : Updating (Option JsString) := do
  let reply ← Program.ask (UpdateOp.listContainers (projectLabel ++ js "=" ++ project))
  let containers ← awaited reply
  return containers.findSome? siblingDir

def pathLost : JsError :=
  JsError.error (js "compose 프로젝트 경로가 구버전 업데이터에 " ++ legacyUpdaterMount ++
    js "로 덮여 있고 되찾을 단서도 없다. " ++
    js "호스트에서 설치 디렉터리로 이동해 `docker compose up -d`를 한 번 실행하면 경로가 복구된다.")

/-- The rest of `resolveComposeProject` where the label has the old mount. -/
def recoverProject (project service : JsString) : Updating ComposeProject := do
  match ← workingDirFromSiblings project with
  | some recovered => return { project, workingDir := recovered, service }
  | none => throw pathLost

def resolveComposeProject (process : Process) : Updating ComposeProject := do
  let reply ← Program.ask (UpdateOp.inspect (selfContainerId process))
  let info ← awaited reply
  let labels := info.getD []
  match label labels projectLabel, label labels workingDirLabel, label labels serviceLabel with
  | some project, some workingDir, some service =>
      if workingDir ≠ legacyUpdaterMount then return { project, workingDir, service }
      else recoverProject project service
  | _, _, _ => throw (JsError.error
      (js "Agent가 docker compose로 기동되지 않아 자동 업데이트를 사용할 수 없다. 설치 스크립트로 다시 설치해야 한다."))

def defaultAgentImage : JsString := js "ghcr.io/optics-organization/optics-agent"

def updaterImage : JsString := js "docker:27-cli"

def updaterContainer : JsString := js "optics-agent-updater"

def healthWaitSeconds : JsString := js "45"

def updaterArgs (workingDir service agentImage version script : JsString) : List JsString :=
  [js "run", js "-d",
    js "--name", updaterContainer,
    js "-v", js "/var/run/docker.sock:/var/run/docker.sock",
    js "-v", workingDir ++ js ":" ++ workingDir,
    js "-w", workingDir,
    js "-e", js "AGENT_IMAGE=" ++ agentImage,
    js "-e", js "TARGET_TAG=" ++ version,
    js "-e", js "AGENT_SERVICE=" ++ service,
    js "-e", js "HEALTH_WAIT=" ++ healthWaitSeconds,
    updaterImage,
    js "sh", js "-c", script]

/-- `updateAgent` from where the project is found. `script` is what
`readUpdateScript` gives. -/
def startUpdater (process : Process) (script : Except JsError JsString) (version : JsString)
    (found : ComposeProject) : Updating Unit := do
  let agentImage := process.agentImage.getD defaultAgentImage
  let _ ← Program.ask (UpdateOp.runSync [js "rm", js "-f", updaterContainer])
  let script ← awaited script
  let result ← Program.ask (UpdateOp.runSync
    (updaterArgs found.workingDir found.service agentImage version script))
  if result.status ≠ some 0 then
    throw (JsError.error (js "Failed to start updater container: " ++ trim result.stderr))

/-- The pattern is of ASCII characters only, so that it can be tested on the
bytes. -/
def updateAgent (process : Process) (script : Except JsError JsString) (version : JsString) :
    Updating Unit :=
  if tagPattern (utf8Bytes version) then do
    let found ← resolveComposeProject process
    startUpdater process script version found
  else throw (JsError.error (js "Rejected malformed image tag: " ++ version))

/-! ## What docker makes of the arguments -/

/-- Assumed of docker, for the options an updater is started with. -/
def takesValue (option : JsString) : Bool :=
  [js "--name", js "-v", js "-w", js "-e"].contains option

/-- The options of a `docker run`, up to the image. -/
def runOptions : List JsString → List (JsString × JsString)
  | option :: value :: rest =>
      if takesValue option then (option, value) :: runOptions rest
      else if option = js "-d" then runOptions (value :: rest)
      else []
  | _ => []

def optionValues (args : List JsString) (option : JsString) : List JsString :=
  (runOptions args.tail).filterMap fun p => if p.1 = option then some p.2 else none

/-- The directory of the host that a volume shows at a path of the container, as
docker is assumed to read it. -/
def mountedAt (path volume : JsString) : Option JsString :=
  match splitUnit 58 volume with
  | [source, target] => if target = path ∧ source.head? = some 47 then some source else none
  | _ => none

def workdir (args : List JsString) : Option JsString := (optionValues args (js "-w")).getLast?

/-- The directory of the host that the container works in. -/
def workspace (args : List JsString) : Option JsString :=
  (workdir args).bind fun path => (optionValues args (js "-v")).findSome? (mountedAt path)

def variableIn (key entry : JsString) : Option JsString :=
  if startsWith entry (key ++ js "=") then some (entry.drop (key.length + 1)) else none

def environment (args : List JsString) (key : JsString) : Option JsString :=
  (optionValues args (js "-e")).findSome? (variableIn key)

/-! ## The host -/

/-- `names` are the ids and names docker knows a container by. -/
structure Container where
  names : List JsString
  labels : Labels

structure Host where
  process : Process
  agent : Container
  others : List Container
  /-- The updater that has not ended, by the arguments it was started with. -/
  updater : Option (List JsString) := none
  /-- The environment file of the project. -/
  envFile : Option (List Byte) := none
  /-- The updaters that were started, oldest first. -/
  started : List (List JsString) := []
  /-- The tags of the updates that ended, with their exit codes, oldest first. -/
  finished : List (List Byte × ℕ) := []

/-- How docker takes a request: the errors of its API, and what the two commands
end with. -/
structure Replies where
  inspectFails : Option JsError := none
  listFails : Option JsError := none
  removal : CliResult := ⟨some 0, [], []⟩
  start : CliResult := ⟨some 0, [], []⟩

/-- Docker answers without an error and starts what it is told to start. -/
structure Replies.Answer (replies : Replies) : Prop where
  inspects : replies.inspectFails = none
  lists : replies.listFails = none
  starts : replies.start.status = some 0

namespace Host

def containers (h : Host) : List Container := h.agent :: h.others

def noSuchContainer : JsError := JsError.error (js "no such container")

def inspect (h : Host) (replies : Replies) (id : JsString) : Except JsError (Option Labels) :=
  match replies.inspectFails with
  | some e => .error e
  | none =>
      match h.containers.find? fun container => container.names.contains id with
      | some container => .ok (some container.labels)
      | none => .error noSuchContainer

def hasLabel (entry : JsString) (labels : Labels) : Bool :=
  labels.any fun p => p.1 ++ js "=" ++ p.2 == entry

def listContainers (h : Host) (replies : Replies) (entry : JsString) :
    Except JsError (List (Option Labels)) :=
  match replies.listFails with
  | some e => .error e
  | none => .ok ((h.containers.filter fun container => hasLabel entry container.labels).map
      fun container => some container.labels)

def launched (h : Host) (args : List JsString) : Host :=
  { h with updater := some args, started := h.started ++ [args] }

def answer (replies : Replies) : (op : UpdateOp) → Host → op.Reply × Host
  | .inspect id, h => (h.inspect replies id, h)
  | .listContainers entry, h => (h.listContainers replies entry, h)
  | .runSync args, h =>
      if args.head? = some (js "rm") then
        (replies.removal, if replies.removal.status = some 0 then { h with updater := none } else h)
      else (replies.start, if replies.start.status = some 0 then h.launched args else h)

/-- The agent handles an `update-agent` message. -/
def request (h : Host) (script version : JsString) (replies : Replies) : Host :=
  ((updateAgent h.process (.ok script) version).run (answer replies) h).2

/-- The container compose is assumed to make in place of the agent's, working in a
directory. -/
def recreated (h : Host) (dir : JsString) (process : Process) (names : List JsString) : Host :=
  { h with
    process := process
    agent := {
      names := names
      labels := [(projectLabel, (ownValue h.agent.labels projectLabel).getD []),
        (workingDirLabel, dir), (serviceLabel, (ownValue h.agent.labels serviceLabel).getD [])] } }

end Host

/-- `fresh` is the agent's next container, where compose made one. An updater can
be removed before its script has ended, with the tag written or not. -/
inductive UpdateEvent where
  | request (version : JsString) (replies : Replies)
  | script (o : Outcomes) (fresh : Option (Process × List JsString))
  | cutShort (wrote : Bool) (fresh : Option (Process × List JsString))

/-- The script came to its end. -/
def UpdateEvent.Whole : UpdateEvent → Prop
  | .cutShort .. => False
  | _ => True

section Installation

variable (other : List Byte → List Byte → Option (List Byte)) (script home : JsString)

namespace Host

def targetTag (args : List JsString) : List Byte :=
  utf8Bytes ((environment args (js "TARGET_TAG")).getD [])

/-- A new container reads an id of itself that docker knows it by. -/
def replaced (h : Host) (args : List JsString) : Option (Process × List JsString) → Option Host
  | none => some h
  | some (process, names) =>
      if workspace args = some home ∧ selfContainerId process ∈ names then
        some (h.recreated ((workdir args).getD []) process names)
      else none

/-- Compose finds the project, if the updater is there. -/
def scriptRun (h : Host) (args : List JsString) (o : Outcomes) : Finished :=
  updateScript other { o with config := o.config && decide (workspace args = some home) }
    (targetTag args) h.envFile

def step (h : Host) : UpdateEvent → Option Host
  | .request version replies => some (h.request script version replies)
  | .script o fresh =>
      h.updater.bind fun args =>
        (h.replaced home args fresh).map fun after =>
          let result := h.scriptRun other home args o
          { after with
            updater := none
            envFile := result.envFile
            finished := h.finished ++ [(targetTag args, result.exitCode)] }
  | .cutShort wrote fresh =>
      h.updater.bind fun args =>
        (h.replaced home args fresh).map fun after =>
          { after with
            updater := none
            envFile :=
              if wrote && decide (workspace args = some home) then
                (writeTag other (targetTag args) h.envFile).or h.envFile
              else h.envFile }

end Host

def installation : Machine Host UpdateEvent where
  step := Host.step other script home

end Installation

/-! ## The updater's arguments -/

section Arguments

variable (workingDir service agentImage version script : JsString)

theorem runOptions_updaterArgs :
    runOptions (updaterArgs workingDir service agentImage version script).tail =
      [(js "--name", updaterContainer),
        (js "-v", js "/var/run/docker.sock:/var/run/docker.sock"),
        (js "-v", workingDir ++ js ":" ++ workingDir),
        (js "-w", workingDir),
        (js "-e", js "AGENT_IMAGE=" ++ agentImage),
        (js "-e", js "TARGET_TAG=" ++ version),
        (js "-e", js "AGENT_SERVICE=" ++ service),
        (js "-e", js "HEALTH_WAIT=" ++ healthWaitSeconds)] := by
  have hname : takesValue (js "--name") = true := by decide
  have hvolume : takesValue (js "-v") = true := by decide
  have hworkdir : takesValue (js "-w") = true := by decide
  have henv : takesValue (js "-e") = true := by decide
  have hdetach : takesValue (js "-d") = false := by decide
  have himage : takesValue updaterImage = false ∧ updaterImage ≠ js "-d" := by decide
  simp [updaterArgs, runOptions, hname, hvolume, hworkdir, henv, hdetach, himage]

theorem optionValues_volume :
    optionValues (updaterArgs workingDir service agentImage version script) (js "-v") =
      [js "/var/run/docker.sock:/var/run/docker.sock", workingDir ++ js ":" ++ workingDir] := by
  rw [optionValues, runOptions_updaterArgs]
  rfl

@[simp] theorem workdir_updaterArgs :
    workdir (updaterArgs workingDir service agentImage version script) = some workingDir := by
  rw [workdir, optionValues, runOptions_updaterArgs]
  rfl

@[simp] theorem environment_targetTag :
    environment (updaterArgs workingDir service agentImage version script) (js "TARGET_TAG") =
      some version := by
  rw [environment, optionValues, runOptions_updaterArgs]
  rfl

end Arguments

/-- A directory of the host that a volume can name, and that is not the mount of
the old updaters. -/
structure HostPath (home : JsString) : Prop where
  absolute : home.head? = some 47
  noColon : 58 ∉ home
  notLegacy : home ≠ legacyUpdaterMount

theorem HostPath.ne_nil {home : JsString} (h : HostPath home) : home ≠ [] := by
  intro hnil
  have habsolute := h.absolute
  rw [hnil] at habsolute
  cases habsolute

theorem mountedAt_same {home : JsString} (h : HostPath home) :
    mountedAt home (home ++ js ":" ++ home) = some home := by
  have hcolon : js ":" = [58] := rfl
  have hsplit : splitUnit 58 (home ++ js ":" ++ home) = [home, home] := by
    rw [hcolon, List.append_assoc, List.singleton_append, splitUnit_append,
      splitUnit_of_not_mem h.noColon]
    rfl
  rw [mountedAt, hsplit]
  simp [h.absolute]

/-- Both volumes have the same path on either side. -/
theorem workspace_updaterArgs {home : JsString} (h : HostPath home)
    (service agentImage version script : JsString) :
    workspace (updaterArgs home service agentImage version script) = some home := by
  rw [workspace, workdir_updaterArgs, Option.bind_some, optionValues_volume,
    List.findSome?_cons, List.findSome?_cons, mountedAt_same h]
  have hsocket : splitUnit 58 (js "/var/run/docker.sock:/var/run/docker.sock") =
      [js "/var/run/docker.sock", js "/var/run/docker.sock"] := by
    decide
  rw [mountedAt, hsocket]
  by_cases hhome : js "/var/run/docker.sock" = home
  · subst hhome
    rfl
  · simp [hhome]

/-- The arguments of an updater for the project, and a tag that is one. -/
def StartedFor (home : JsString) (args : List JsString) : Prop :=
  ∃ service agentImage version script,
    args = updaterArgs home service agentImage version script ∧
      tagPattern (utf8Bytes version) = true

theorem StartedFor.workdir {home : JsString} {args : List JsString} (h : StartedFor home args) :
    workdir args = some home := by
  obtain ⟨service, agentImage, version, script, rfl, -⟩ := h
  exact workdir_updaterArgs ..

theorem StartedFor.workspace {home : JsString} {args : List JsString} (hpath : HostPath home)
    (h : StartedFor home args) : workspace args = some home := by
  obtain ⟨service, agentImage, version, script, rfl, -⟩ := h
  exact workspace_updaterArgs hpath ..

theorem StartedFor.tag {home : JsString} {args : List JsString} (h : StartedFor home args) :
    tagPattern (Host.targetTag args) = true := by
  obtain ⟨service, agentImage, version, script, rfl, htag⟩ := h
  rwa [Host.targetTag, environment_targetTag]

end OpticsAgent.Update
