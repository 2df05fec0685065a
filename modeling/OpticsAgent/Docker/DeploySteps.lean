import Mathlib
import OpticsAgent.Docker.ContainerLifecycle
import OpticsAgent.Docker.Deploy

/-!
What a deployment asks docker and the file system for, in the order it does. It
works in the directory of its service and under the name of its service only,
leaves the markers and the rows alone, and removes no image. The removal of a
service asks for few things besides.
-/

namespace OpticsAgent.Docker

open OpticsAgent.Ecma OpticsAgent.Node OpticsAgent.Lib Agent

/-- A step of deploying the service docker knows as `name`. -/
def DeployStep (name : JsString) : Op → Prop
  | .books (.findMarker ..) | .books (.createMarker _) | .books (.deleteMarkers _)
  | .books (.deleteServices _) => False
  | .call (.buildImage _ _ tag) => ∃ version, tag = name ++ js ":" ++ version
  | .call (.removeImage _) => False
  | _ => True

theorem Looks.deployStep {name : JsString} {op : Op} (h : Looks op) : DeployStep name op := by
  match op with
  | .call (.runSync ..) | .call (.existsSync _) => trivial

/-! ## Kinds of calls -/

/-- The calls that look whether the agent runs in a container, and make the build
root. -/
inductive WorkspaceCall (settings : Settings) : Call → Prop
  | runtime : WorkspaceCall settings (.existsSync (js "/.dockerenv"))
  | root : WorkspaceCall settings (.mkdirSync settings.buildRoot)

/-- What is mounted as the workspace of a helper container: the build root, or the
volume it is kept in. -/
def Settings.Mounts (settings : Settings) (mount : JsString) : Prop :=
  mount = settings.buildRoot ∨ mount = settings.buildVolume.getD (js "optics-build")

/-- The user a helper container runs as: that of its image, or that of the agent. -/
def Settings.RunsAs (settings : Settings) (userArgs : List JsString) : Prop :=
  userArgs = [] ∨ ∃ uid gid, settings.user = some (uid, gid) ∧
    userArgs = [js "-u", (Number.ofInt uid).toText ++ js ":" ++ (Number.ofInt gid).toText]

/-- The calls that remove a directory of the workspace, here or in a container
that is gone afterwards. -/
inductive CleanCall (settings : Settings) (dir : JsString) : Call → Prop
  | rmSync : CleanCall settings dir (.rmSync dir)
  | helper (mount : JsString) (h : settings.Mounts mount) :
      CleanCall settings dir (.runSync (helperRemovalArgs mount
        (js "/workspace/" ++ Path.relative settings.cwd settings.buildRoot dir)) none)

/-- The calls that remove a container. -/
inductive RemovalCall (name : JsString) : Call → Prop
  | inspect : RemovalCall name (.inspectContainer name)
  | stop : RemovalCall name (.stopContainer name)
  | remove : RemovalCall name (.removeContainer name)

/-- The calls that look at the containers of a service. -/
inductive SnapshotCall (settings : Settings) (name : JsString) : Call → Prop
  | existsSync : SnapshotCall settings name (.existsSync (Path.join [settings.buildRoot, name]))
  | inspect : SnapshotCall settings name (.runSync [js "inspect", name] none)
  | composePs : SnapshotCall settings name
      (.runSync (composePsArgs name) (some (Path.join [settings.buildRoot, name])))
  | projectPs : SnapshotCall settings name (.runSync (projectPsArgs name) none)

/-! ## The places of a deployment -/

/-- A repository with the directory it is cloned into. -/
structure Checkout where
  url : JsString
  directory : JsString
deriving DecidableEq

/-- A path that does not stay below what it is relative to. -/
def leaves (relative : JsString) : Bool :=
  startsWith relative (js "..") || Path.isAbsolute relative

theorem toContainerPath_eq (settings : Settings) (targetDir label : JsString) :
    toContainerPath settings targetDir label =
      if leaves (Path.relative settings.cwd settings.buildRoot targetDir) then
        await (.error (.error (label ++ js " must stay inside the build workspace.")))
      else
        await (.ok (js "/workspace/" ++
          Path.relative settings.cwd settings.buildRoot targetDir)) := rfl

namespace DeployCommand

variable (settings : Settings) (data : DeployCommand)

/-- The name docker knows the service by. -/
def dockerName : JsString := toDockerName settings.casing data.serviceName

def serviceDir : JsString := Path.join [settings.buildRoot, data.dockerName settings]

def checkoutBelow (url : JsString) : Checkout :=
  ⟨url, Path.join [data.serviceDir settings, repoName url]⟩

/-- One repository is cloned into the directory of the service, several are
cloned next to each other below it. -/
def checkouts : List Checkout :=
  match (normalizeSourceRepositories data.sourceUrl).map (·.url) with
  | [url] => [⟨url, data.serviceDir settings⟩]
  | urls => urls.map (data.checkoutBelow settings)

/-- Where the first repository is. -/
def clonedDir : JsString :=
  ((data.checkouts settings).head?.map (·.directory)).getD (data.serviceDir settings)

def cleanRoot : JsString := trim ((primaryRootDirectory data).getD [])

/-- The directory to build in. -/
def contextDir : JsString :=
  if data.cleanRoot = [] ∨ data.cleanRoot = js "." then data.clonedDir settings
  else Path.resolve settings.cwd (data.clonedDir settings) data.cleanRoot

end DeployCommand

theorem resolveBuildContext_eq (settings : Settings) (data : DeployCommand) :
    resolveBuildContext settings (data.clonedDir settings) (primaryRootDirectory data) =
      if data.cleanRoot = [] ∨ data.cleanRoot = js "." then pure (data.clonedDir settings)
      else if leaves (Path.relative settings.cwd (data.clonedDir settings)
          (Path.resolve settings.cwd (data.clonedDir settings) data.cleanRoot)) then
        throw (.error (js "Root directory must stay inside the cloned repository."))
      else (do
        if ← call (.existsSync
            (Path.resolve settings.cwd (data.clonedDir settings) data.cleanRoot)) then
          if ← await (← call (.isDirectory
              (Path.resolve settings.cwd (data.clonedDir settings) data.cleanRoot))) then
            pure (Path.resolve settings.cwd (data.clonedDir settings) data.cleanRoot)
          else throw (.error (js "Root directory not found: " ++ data.cleanRoot))
        else throw (.error (js "Root directory not found: " ++ data.cleanRoot))) := rfl

/-! ## The parts of a deployment -/

section Parts

variable (settings : Settings) (data : DeployCommand) (emit : HubEmit)

/-- The deployment until the sources are there. -/
def untilSources : Agent JsString := do
  sendStatus emit data.serviceIndex .building
  sendLog emit data.serviceIndex (data.dockerName settings) .deploy
    (js "Redeploying service " ++ data.dockerName settings ++ js "@" ++ data.serviceVersion)
  prepareSources settings (data.dockerName settings) data
    (sendLog emit data.serviceIndex (data.dockerName settings) .deploy)

/-- What a deployment makes of its look for a compose file. -/
def decideCompose (found : Bool) : Agent Bool :=
  let preset := settings.casing.toUpperCase data.deployPreset
  if preset = js "COMPOSE" && !found then
    throw (.error (js "docker-compose.yml not found."))
  else pure (preset == js "COMPOSE" || (preset != js "DOCKERFILE" && found))

theorem shouldUseCompose_eq (buildDir : JsString) :
    shouldUseCompose settings data.deployPreset buildDir =
      hasComposeFile buildDir >>= decideCompose settings data := rfl

/-- The deployment from there on, when the way is known. -/
def fromSources (onExpectedServices : List JsString → Agent Unit) (buildDir : JsString)
    (useCompose : Bool) : Agent Bool := do
  let log := sendLog emit data.serviceIndex (data.dockerName settings) .deploy
  if useCompose then
    deployWithCompose (data.dockerName settings) buildDir data log onExpectedServices
  else
    deployWithDockerfile settings (data.dockerName settings) buildDir data log
      (sendStatus emit data.serviceIndex)
  log (js "Service redeployed successfully.")
  sendStatus emit data.serviceIndex .running
  pure true

theorem deploy_eq (onExpectedServices : List JsString → Agent Unit) :
    deploy settings data emit onExpectedServices = (do
      try
        let buildDir ← untilSources settings data emit
        let useCompose ← shouldUseCompose settings data.deployPreset buildDir
        fromSources settings data emit onExpectedServices buildDir useCompose
      catch e =>
        cleanupFailedDeployment
          (sendLog emit data.serviceIndex (data.dockerName settings) .deploy)
        sendStatus emit data.serviceIndex .failed
        sendLog emit data.serviceIndex (data.dockerName settings) .deploy (js "ERROR: " ++ e.text)
        pure false) := by
  unfold untilSources
  rw [Program.bind_bind]
  refine congrArg (fun body => tryCatch body _) (congrArg _ (funext fun _ => ?_))
  rw [Program.bind_bind]
  rfl

end Parts

/-- The call that clones a repository, in a container that is gone afterwards. -/
inductive CheckoutCall (settings : Settings) (checkout : Checkout) : Call → Prop
  | run (userArgs : List JsString) (mount : JsString) (huser : settings.RunsAs userArgs)
      (hmount : settings.Mounts mount) :
      CheckoutCall settings checkout (.run ([js "run", js "--rm"] ++ userArgs ++
        [js "-v", mount ++ js ":/workspace", js "alpine/git", js "clone", checkout.url,
          js "/workspace/" ++
            Path.relative settings.cwd settings.buildRoot checkout.directory]) none)

/-! ## What a deployment does next -/

/-- When containers are shown to the Hub: before the work, once the services of a
compose project are known, and after the start. -/
inductive Occasion where
  | greeting | expected | looked
deriving DecidableEq

/-- The service is tracked, then the snapshot is kept, then it is told. -/
inductive Showing where
  | track
  | store
  | tell (snapshot : ContainerSnapshot)
deriving DecidableEq

/-- What is due next in a deployment. -/
inductive Due where
  /-- To look for a marker like the one of the deployment. -/
  | marker
  | newMarker
  | markerTold
  | showing (occasion : Occasion) (part : Showing)
  | building
  | inspect
  | stop
  | remove
  /-- To remove the directory of the service, here or in a helper container. -/
  | clear
  | helper
  /-- To make the directory for several repositories. -/
  | spread
  /-- To make the directory to clone into, then to clone. `begun` says whether
  something was cloned already. -/
  | parent (begun : Bool) (checkout : Checkout) (rest : List Checkout)
  | clone (begun : Bool) (checkout : Checkout) (rest : List Checkout)
  /-- To find the root directory asked for, and see that it is one. -/
  | find
  | enter
  | permit
  | list
  | permitEach (file : JsString) (rest : List JsString)
  | composeYml
  | composeYaml
  | env
  | services
  | override
  | up
  | source
  | image (src : List JsString)
  | starting
  | create
  | start
  | running
  | status
  | observed
  /-- Something failed, and that is to be told. -/
  | halted
  | failed
  /-- The database rejected what the marker needs, and the work ended there. -/
  | rejected
deriving DecidableEq

namespace Due

variable (settings : Settings) (data : DeployCommand)

/-- Behind the clones. -/
def context : Due :=
  if data.cleanRoot = [] ∨ data.cleanRoot = js "." then .permit
  else if leaves (Path.relative settings.cwd (data.clonedDir settings)
      (data.contextDir settings)) then .halted
  else .find

/-- The repositories still to be cloned. -/
def cloning (begun : Bool) : List Checkout → Due
  | [] => if begun then context settings data else .halted
  | checkout :: rest =>
      if leaves (Path.relative settings.cwd settings.buildRoot checkout.directory) then .halted
      else .parent begun checkout rest

/-- Behind the removal of the directory. -/
def sources : Due :=
  if (data.checkouts settings).length = 1 then cloning settings data false (data.checkouts settings)
  else .spread

/-- Whether the container runs is known, or there is none. -/
def inspected : Option Bool → Due
  | some true => .stop
  | some false => .remove
  | none => .clear

/-- The entries whose permissions are still to be set. -/
def permitting : List JsString → Due
  | [] => .composeYml
  | file :: rest => .permitEach file rest

/-- The entries of the directory are known. -/
def listed : Option (List JsString) → Due
  | some files => permitting files
  | none => .halted

/-- What the image is built from is known. -/
def read : Option (List JsString) → Due
  | some src => .image src
  | none => .halted

/-- Whether there is a compose file is known. -/
def chosen (found : Bool) : Due :=
  let preset := settings.casing.toUpperCase data.deployPreset
  if preset = js "COMPOSE" && !found then .halted
  else if preset == js "COMPOSE" || (preset != js "DOCKERFILE" && found) then .env
  else .source

/-- What docker and the file system are asked for. -/
def calls : Due → Call → Prop
  | .inspect, c => c = .inspectContainer (data.dockerName settings)
  | .stop, c => c = .stopContainer (data.dockerName settings)
  | .remove, c => c = .removeContainer (data.dockerName settings)
  | .clear, c => c = .rmSync (data.serviceDir settings)
  | .helper, c => WorkspaceCall settings c ∨ ∃ mount, settings.Mounts mount ∧
      c = .runSync (helperRemovalArgs mount (js "/workspace/" ++
        Path.relative settings.cwd settings.buildRoot (data.serviceDir settings))) none
  | .spread, c => c = .mkdirSync (data.serviceDir settings)
  | .parent _ checkout _, c => c = .mkdirSync (Path.dirname checkout.directory)
  | .clone _ checkout _, c => WorkspaceCall settings c ∨ CheckoutCall settings checkout c
  | .find, c => c = .existsSync (data.contextDir settings)
  | .enter, c => c = .isDirectory (data.contextDir settings)
  | .permit, c => c = .chmodSync (data.contextDir settings)
  | .list, c => c = .readdirSync (data.contextDir settings)
  | .permitEach file _, c => c = .chmodSync (Path.join [data.contextDir settings, file])
  | .composeYml, c =>
      c = .existsSync (Path.join [data.contextDir settings, js "docker-compose.yml"])
  | .composeYaml, c =>
      c = .existsSync (Path.join [data.contextDir settings, js "docker-compose.yaml"])
  | .env, c => ∃ content,
      c = .writeFileSync (Path.join [data.contextDir settings, js ".env"]) content
  | .services, c => c = .runSync configArgs (some (data.contextDir settings))
  | .override, c => ∃ content, c = .writeFileSync
      (Path.join [data.contextDir settings, js "docker-compose.override.yml"]) content
  | .up, c => c = .run (composeUpArgs (data.dockerName settings)) (some (data.contextDir settings))
  | .source, c => c = .readdirSync (data.contextDir settings)
  | .image src, c => c = .buildImage (data.contextDir settings) src
      (data.dockerName settings ++ js ":" ++ data.serviceVersion)
  | .create, c => c = .createContainer (containerSpec settings (data.dockerName settings)
      data.serviceVersion (resolvePortMappings data) data.env)
  | .start, c => c = .startContainer (data.dockerName settings)
  | .showing .looked .store, c => SnapshotCall settings (data.dockerName settings) c
  | _, _ => False

end Due

/-- What a question to docker or the file system is answered with. -/
def Call.answer : (c : Call) → c.Reply → Option Bool
  | .inspectContainer _, reply => Except.toOption (α := Bool) reply
  | .isDirectory _, reply => Except.toOption (α := Bool) reply
  | .existsSync _, reply => some reply
  | _, _ => none

/-- The entries of a directory. -/
def Call.entries : (c : Call) → c.Reply → Option (List JsString)
  | .readdirSync _, reply => Except.toOption (α := List JsString) reply
  | _, _ => none

/-- The names a process lists. -/
def Call.listed : (c : Call) → c.Reply → List JsString
  | .runSync .., result => ((splitUnit 10 (CliResult.stdout result)).map trim).filter (· ≠ [])
  | _, _ => []

/-- What only prepares the workspace. -/
def Call.prepares : Call → Bool
  | .existsSync _ | .mkdirSync _ => true
  | _ => false

/-- Where the reply of a call leads. -/
def Due.after (settings : Settings) (data : DeployCommand) : Due → (c : Call) → c.Reply → Due
  | .inspect, c, reply => inspected (c.answer reply)
  | .stop, c, reply => if c.succeeds reply then .remove else .clear
  | .remove, _, _ => .clear
  | .clear, c, reply =>
      if c.succeeds reply then sources settings data
      else if leaves (Path.relative settings.cwd settings.buildRoot (data.serviceDir settings)) then
        .halted
      else .helper
  | .helper, c, reply =>
      if c.succeeds reply then if c.prepares then .helper else sources settings data else .halted
  | .spread, c, reply =>
      if c.succeeds reply then cloning settings data false (data.checkouts settings) else .halted
  | .parent begun checkout rest, c, reply =>
      if c.succeeds reply then .clone begun checkout rest else .halted
  | .clone begun checkout rest, c, reply =>
      if c.succeeds reply then
        if c.prepares then .clone begun checkout rest else cloning settings data true rest
      else .halted
  | .find, c, reply => if c.answer reply = some true then .enter else .halted
  | .enter, c, reply => if c.answer reply = some true then .permit else .halted
  | .permit, c, reply => if c.succeeds reply then .list else .halted
  | .list, c, reply => listed (c.entries reply)
  | .permitEach _ rest, _, _ => permitting rest
  | .composeYml, c, reply =>
      if c.answer reply = some true then chosen settings data true else .composeYaml
  | .composeYaml, c, reply => chosen settings data ((c.answer reply).getD false)
  | .env, c, reply => if c.succeeds reply then .services else .halted
  | .services, c, reply =>
      if c.succeeds reply then if c.listed reply = [] then .halted else .override else .halted
  | .override, c, reply => if c.succeeds reply then .showing .expected .track else .halted
  | .up, c, reply => if c.succeeds reply then .running else .halted
  | .source, c, reply => read (c.entries reply)
  | .image _, c, reply => if c.succeeds reply then .starting else .halted
  | .create, c, reply => if c.succeeds reply then .start else .halted
  | .start, c, reply => if c.succeeds reply then .running else .halted
  | due, _, _ => due

theorem Due.after_clear (settings : Settings) (data : DeployCommand) (c : Call)
    (reply : c.Reply) : Due.clear.after settings data c reply =
      if c.succeeds reply then sources settings data
      else if leaves (Path.relative settings.cwd settings.buildRoot (data.serviceDir settings)) then
        .halted
      else .helper := rfl

theorem Due.cloning_cons (settings : Settings) (data : DeployCommand) (begun : Bool)
    (checkout : Checkout) (rest : List Checkout) :
    cloning settings data begun (checkout :: rest) =
      if leaves (Path.relative settings.cwd settings.buildRoot checkout.directory) then .halted
      else .parent begun checkout rest := rfl

theorem Due.after_spread (settings : Settings) (data : DeployCommand) (c : Call)
    (reply : c.Reply) : Due.spread.after settings data c reply =
      if c.succeeds reply then cloning settings data false (data.checkouts settings)
      else .halted := rfl

theorem Due.after_clone (settings : Settings) (data : DeployCommand) (begun : Bool)
    (checkout : Checkout) (rest : List Checkout) (args : List JsString) (cwd : Option JsString)
    (process : CliRun) :
    (Due.clone begun checkout rest).after settings data (.run args cwd) process =
      if (Call.run args cwd).succeeds process then cloning settings data true rest
      else .halted := rfl

theorem Due.after_services (settings : Settings) (data : DeployCommand) (dir : JsString)
    (result : CliResult) :
    Due.services.after settings data (.runSync configArgs (some dir)) result =
      if result.status = some 0 then
        if ((splitUnit 10 result.stdout).map trim).filter (· ≠ []) = [] then .halted else .override
      else .halted :=
  if_congr decide_eq_true_iff rfl rfl

/-- The statuses reported, and where they lead. -/
def Due.report : Due → ServiceStatus → Option Due
  | .building, .building => some .inspect
  | .starting, .starting => some .create
  | .running, .running => some (.showing .looked .track)
  | .halted, .failed => some .failed
  | .status, _ => some .observed
  | _, _ => none

/-- What the Hub is told. -/
def Due.tells (due : Due) : Emission → Prop
  | .serviceLog .. => True
  | .serviceStatus _ reported => (due.report reported).isSome = true
  | .containerStatus snapshot => ∃ occasion, due = .showing occasion (.tell snapshot)
  | .serviceLogMarkers .. => due = .markerTold

/-- Behind the tracking of the service. -/
def Due.tracked : Due → Due
  | .showing occasion .track => .showing occasion .store
  | due => due

/-- Behind the keeping of the snapshot. -/
def Due.stored (snapshot : ContainerSnapshot) : Due → Due
  | .showing occasion .store => .showing occasion (.tell snapshot)
  | due => due

/-- Behind the telling of the snapshot. -/
def Due.told : Due → Due
  | .showing .greeting (.tell _) => .building
  | .showing .expected (.tell _) => .up
  | .showing .looked (.tell _) => .status
  | due => due

/-- Where the deployment waits for a method of its own. -/
def Due.yields : Due → Bool
  | .showing .greeting .track | .showing .looked .track | .failed => true
  | _ => false

/-- Nothing is left to do. The look at what was started may have failed. -/
def Due.Final (due : Due) : Prop :=
  due = .rejected ∨ due = .failed ∨ due = .showing .looked .store ∨ due = .status ∨
    due = .observed

/-- The calls of a deployment. -/
def DeployCall (settings : Settings) (data : DeployCommand) (c : Call) : Prop :=
  ∃ due : Due, due.calls settings data c

/-! ## What can be due -/

section Busy

variable {settings : Settings} {data : DeployCommand} {due : Due}

-- What is due depends on texts that are not to be evaluated.
attribute [local irreducible] leaves

/-- Neither the marker is asked for nor a snapshot is to be told. -/
def Busy : Due → Prop
  | .marker | .newMarker | .showing _ (.tell _) => False
  | _ => True

/-- The marker is there. -/
def PastMarker : Due → Prop
  | .marker | .newMarker => False
  | _ => True

theorem pastMarker_of_busy (h : Busy due) : PastMarker due := by
  cases due with
  | marker | newMarker => exact h
  | _ => trivial

theorem busy_ite {c : Prop} [Decidable c] {other : Due} (h : Busy due)
    (hother : Busy other) : Busy (if c then due else other) := by
  split_ifs
  · exact h
  · exact hother

theorem busy_cloning (begun : Bool) (checkouts : List Checkout) :
    Busy (.cloning settings data begun checkouts) := by
  cases checkouts with
  | nil =>
      have hcontext : Busy (.context settings data) :=
        busy_ite trivial (busy_ite trivial trivial)
      exact busy_ite hcontext trivial
  | cons checkout rest => exact busy_ite trivial trivial

theorem busy_sources : Busy (.sources settings data) :=
  busy_ite (busy_cloning false _) trivial

theorem busy_permitting (files : List JsString) : Busy (.permitting files) := by
  cases files with
  | nil => trivial
  | cons file rest => trivial

theorem busy_inspected (running : Option Bool) : Busy (.inspected running) := by
  rcases running with - | (- | -) <;> trivial

theorem busy_listed (files : Option (List JsString)) : Busy (.listed files) := by
  cases files with
  | none => trivial
  | some files => exact busy_permitting files

theorem busy_read (src : Option (List JsString)) : Busy (.read src) := by
  cases src <;> trivial

theorem busy_chosen (found : Bool) : Busy (.chosen settings data found) :=
  busy_ite trivial (busy_ite trivial trivial)

/-- Behind a call neither is due. -/
theorem busy_after {c : Call} (h : due.calls settings data c) (reply : c.Reply) :
    Busy (due.after settings data c reply) := by
  cases due with
  | inspect => exact busy_inspected _
  | clear => exact busy_ite busy_sources (busy_ite trivial trivial)
  | helper => exact busy_ite (busy_ite trivial busy_sources) trivial
  | spread => exact busy_ite (busy_cloning false _) trivial
  | clone begun checkout rest =>
      exact busy_ite (busy_ite trivial (busy_cloning true rest)) trivial
  | list => exact busy_listed _
  | permitEach file rest => exact busy_permitting rest
  | composeYml => exact busy_ite (busy_chosen true) trivial
  | composeYaml => exact busy_chosen _
  | services => exact busy_ite (busy_ite trivial trivial) trivial
  | source => exact busy_read _
  | stop | parent | find | enter | permit | env | override | up | image | create | start =>
      exact busy_ite trivial trivial
  | showing occasion part =>
      cases part with
      | track | store => trivial
      | tell snapshot => cases occasion <;> exact h.elim
  | remove => trivial
  | marker | newMarker | markerTold | building | starting | running | status | observed | halted
  | failed | rejected => exact h.elim

theorem deployStep_of_calls {c : Call} (h : due.calls settings data c) :
    DeployStep (data.dockerName settings) (.call c) := by
  cases due with
  | helper =>
      rcases h with h | ⟨mount, -, rfl⟩
      · cases h <;> trivial
      · trivial
  | clone begun checkout rest =>
      rcases h with h | h
      · cases h <;> trivial
      · cases h
        trivial
  | image src =>
      obtain rfl : c = .buildImage _ _ _ := h
      exact ⟨_, rfl⟩
  | env | override =>
      obtain ⟨content, rfl⟩ := h
      trivial
  | showing occasion part =>
      cases occasion with
      | looked =>
          cases part with
          | store => cases h <;> trivial
          | track | tell => exact h.elim
      | greeting | expected => exact h.elim
  | inspect | stop | remove | clear | spread | parent | find | enter | permit | list | permitEach
  | composeYml | composeYaml | services | up | source | create | start =>
      cases h
      trivial
  | marker | newMarker | markerTold | building | starting | running | status | observed | halted
  | failed | rejected => exact h.elim

theorem busy_of_calls {c : Call} (h : due.calls settings data c) : Busy due := by
  cases due with
  | marker | newMarker => exact h.elim
  | showing occasion part =>
      cases part with
      | track | store => trivial
      | tell snapshot => cases occasion <;> exact h.elim
  | _ => trivial

theorem busy_of_yields (h : due.yields = true) : Busy due := by
  unfold Due.yields at h
  split at h
  · trivial
  · trivial
  · trivial
  · cases h

theorem busy_of_report {due' : Due} {status : ServiceStatus}
    (hreport : due.report status = some due') : Busy due := by
  unfold Due.report at hreport
  split at hreport
  · trivial
  · trivial
  · trivial
  · trivial
  · trivial
  · cases hreport

theorem busy_report {due' : Due} {status : ServiceStatus}
    (hreport : due.report status = some due') : Busy due' := by
  unfold Due.report at hreport
  split at hreport <;> cases hreport <;> trivial

end Busy

/-! ## Branches, lines and processes -/

theorem all_ite {P : Op → Prop} {α : Type} (c : Prop) [Decidable c] {p q : Agent α}
    (hp : p.All P) (hq : q.All P) : (if c then p else q).All P := by
  split_ifs
  · exact hp
  · exact hq

theorem all_sendLog {P : Op → Prop} {emit : HubEmit} (hemit : ∀ e, (emit e).All P)
    (hnow : P (.books .now)) (serviceIndex : ℤ) (containerName : JsString) (stream : LogOrigin)
    (line : JsString) : (sendLog emit serviceIndex containerName stream line).All P :=
  .bind (.ask hnow) fun _ => hemit _

/-- The emitter is only asked for emissions of service `serviceIndex`. -/
theorem all_sendLogFor {P : Op → Prop} {emit : HubEmit} {serviceIndex : ℤ}
    (hemit : ∀ e, e.serviceIndex = serviceIndex → (emit e).All P) (hnow : P (.books .now))
    (containerName : JsString) (stream : LogOrigin) (line : JsString) :
    (sendLog emit serviceIndex containerName stream line).All P :=
  .bind (.ask hnow) fun _ => hemit _ rfl

theorem all_dockerCliRun {P : Op → Prop} {args : List JsString} {cwd : Option JsString}
    (hrun : P (.call (.run args cwd))) (label : JsString) {sendLine : JsString → Agent Unit}
    (hline : ∀ line, (sendLine line).All P) : (DockerCli.run args label cwd sendLine).All P := by
  unfold DockerCli.run
  refine .bind (.ask hrun) fun process => ?_
  refine .bind (all_forEachLine hline _) fun _ => ?_
  split
  · exact .throw _
  · split_ifs
    · exact .pure ()
    · exact .throw _

-- The programs below decide on texts; their branches are not to be evaluated.
attribute [local irreducible] Program.All

/-! ## The container and the image of a service -/

section Removal

variable {P : Op → Prop} {log : JsString → Agent Unit} (hlog : ∀ line, (log line).All P)

include hlog

theorem all_removeServiceImage {si : JsString} (hremove : P (.call (.removeImage si))) :
    (removeServiceImage si log).All P := by
  unfold removeServiceImage
  apply Program.All.tryCatch
  · apply Program.All.bind (Program.All.ask hremove)
    intro reply
    exact .bind (all_await _ reply) fun _ => hlog _
  · intro _
    exact hlog _

theorem all_removeServiceContainer {si : JsString} (hinspect : P (.call (.inspectContainer si)))
    (hstop : P (.call (.stopContainer si))) (hremove : P (.call (.removeContainer si))) :
    (removeServiceContainer si log).All P := by
  have hremoval : ∀ _ : Unit, (do
      await (← call (.removeContainer si))
      log (about (js "Container ") si (js " removed.")) : Agent Unit).All P := by
    intro _
    apply Program.All.bind (Program.All.ask hremove)
    intro reply
    exact .bind (all_await _ reply) fun _ => hlog _
  unfold removeServiceContainer
  apply Program.All.bind (Program.All.ask hinspect)
  intro reply
  apply Program.All.bind (all_await _ reply)
  intro running
  apply all_ite
  · apply Program.All.bind (hlog _)
    intro _
    apply Program.All.bind (Program.All.ask hstop)
    intro reply
    exact .bind (all_await _ reply) hremoval
  · exact hremoval ()

end Removal

variable (settings : Settings)

/-! ## A look at the containers -/

theorem all_getContainerSnapshot {P : Op → Prop} {name : JsString}
    (hsnapshot : ∀ c, SnapshotCall settings name c → P (.call c)) (deployPreset : JsString) :
    (getContainerSnapshot settings name deployPreset).All P := by
  have hlabel : (listByLabel settings name).All P := by
    unfold listByLabel DockerCli.runSync
    apply Program.All.bind (Program.All.ask (hsnapshot _ .projectPs))
    intro result
    apply all_ite
    · exact .pure _
    · exact .bind (all_await P _) fun _ => .pure _
  unfold getContainerSnapshot
  apply all_ite
  · unfold listComposeContainers DockerCli.runSync
    dsimp only
    apply Program.All.bind (Program.All.ask (hsnapshot _ .existsSync))
    intro found
    apply all_ite
    · apply Program.All.bind (Program.All.ask (hsnapshot _ .composePs))
      intro result
      apply all_ite
      · exact .bind (all_await P _) fun _ => .pure _
      · exact hlabel
    · exact hlabel
  · unfold inspectDockerfileContainer DockerCli.runSync
    apply Program.All.bind (Program.All.ask (hsnapshot _ .inspect))
    intro result
    apply all_ite
    · exact .pure _
    · exact all_await P _

/-! ## The workspace -/

section Workspace

variable {P : Op → Prop} {sendLine : JsString → Agent Unit}
  (hspace : ∀ c, WorkspaceCall settings c → P (.call c)) (hline : ∀ line, (sendLine line).All P)

include hspace

theorem all_isContainerRuntime : (isContainerRuntime settings).All P := by
  unfold isContainerRuntime
  apply all_ite
  · apply Program.All.pure
  · apply Program.All.ask
    exact hspace _ .runtime

/-- What comes behind the mount gets the build root or its volume. -/
theorem all_mountThen {α : Type} {f : JsString → Agent α}
    (hf : ∀ mount, settings.Mounts mount → (f mount).All P) :
    (cloneWorkspaceMount settings >>= f).All P := by
  unfold cloneWorkspaceMount
  rw [Program.bind_bind]
  apply Program.All.bind (all_isContainerRuntime settings hspace)
  intro inContainer
  cases inContainer with
  | true => exact hf _ (.inr rfl)
  | false =>
      rw [if_neg Bool.false_ne_true]
      simp only [Program.bind_bind]
      apply Program.All.bind (Program.All.ask (hspace _ .root))
      intro reply
      exact .bind (all_await _ reply) fun _ => hf _ (.inl rfl)

theorem all_removeInHelper {targetDir : JsString}
    (hclean : ∀ c, CleanCall settings targetDir c → P (.call c)) :
    (removeInHelper settings targetDir).All P := by
  unfold removeInHelper toContainerPath DockerCli.runSync
  dsimp only
  split_ifs
  · exact Program.All.throw (ε := JsError) _
  · change Program.All P (cloneWorkspaceMount settings >>= _)
    apply all_mountThen settings hspace
    intro mount hmount
    apply Program.All.bind (Program.All.ask (hclean _ (.helper mount hmount)))
    intro result
    apply all_ite
    · apply Program.All.throw
    · apply Program.All.pure

include hline in
theorem all_removeBuildDir {targetDir : JsString}
    (hclean : ∀ c, CleanCall settings targetDir c → P (.call c)) :
    (removeBuildDir settings targetDir sendLine).All P := by
  unfold removeBuildDir
  apply Program.All.bind (Program.All.ask (hclean _ .rmSync))
  intro reply
  cases reply with
  | ok _ => apply Program.All.pure
  | error e =>
      apply Program.All.bind (hline _)
      intro _
      exact all_removeInHelper settings hspace hclean

end Workspace

theorem deployStep_removeBuildDir {name : JsString} {sendLine : JsString → Agent Unit}
    (hline : ∀ line, (sendLine line).All (DeployStep name)) (targetDir : JsString) :
    (removeBuildDir settings targetDir sendLine).All (DeployStep name) :=
  all_removeBuildDir settings (fun _ h => by cases h <;> trivial) hline
    fun _ h => by cases h <;> trivial

end OpticsAgent.Docker
