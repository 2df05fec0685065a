import Mathlib
import OpticsAgent.Docker.ContainerInspect

/-!
`BuildWorkspaceService`: cloning into the build directory and removing it
again. A directory the host cannot remove is removed by a helper container.
-/

namespace OpticsAgent.Docker

open OpticsAgent.Ecma OpticsAgent.Node OpticsAgent.Lib Agent

variable (settings : Settings)

/-- `isContainerRuntime`. -/
def isContainerRuntime : Agent Bool := do
  if settings.agentRuntime = some (js "container") then pure true
  else call (.existsSync (js "/.dockerenv"))

def cloneWorkspaceMount : Agent JsString := do
  if ← isContainerRuntime settings then pure (settings.buildVolume.getD (js "optics-build"))
  else
    await (← call (.mkdirSync settings.buildRoot))
    pure settings.buildRoot

/-- The path below the workspace mount; a path outside is refused. -/
def toContainerPath (targetDir label : JsString) : Agent JsString := do
  let relativeTarget := Path.relative settings.cwd settings.buildRoot targetDir
  if startsWith relativeTarget (js "..") || Path.isAbsolute relativeTarget then
    throw (.error (label ++ js " must stay inside the build workspace."))
  else pure (js "/workspace/" ++ relativeTarget)

def helperRemovalArgs (mount containerTarget : JsString) : List JsString :=
  [js "run", js "--rm", js "-v", mount ++ js ":/workspace", js "alpine:3.20", js "rm", js "-rf",
    containerTarget]

/-- The second attempt, in a helper container. -/
def removeInHelper (targetDir : JsString) : Agent Unit := do
  let containerTarget ← toContainerPath settings targetDir (js "Build directory cleanup target")
  let mount ← cloneWorkspaceMount settings
  let result ← DockerCli.runSync (helperRemovalArgs mount containerTarget) none
  if result.status ≠ some 0 then
    throw (.error (if trim result.stderr ≠ [] then trim result.stderr
      else js "helper cleanup container exited with code " ++
        (if result.status = none then js "unknown" else codeText result.status)))
  else pure ()

def removeBuildDir (targetDir : JsString) (sendLine : JsString → Agent Unit) : Agent Unit := do
  match ← call (.rmSync targetDir) with
  | .ok _ => pure ()
  | .error e =>
      sendLine (js "[BuildWorkspaceService] Local build directory cleanup failed, retrying in " ++
        js "helper container.\n  " ++ e.text)
      removeInHelper settings targetDir

/-- The user arguments of `docker run`, when the agent runs on the host. -/
def dockerRunUserArgs : Agent (List JsString) := do
  if ← isContainerRuntime settings then pure []
  else
    match settings.user with
    | none => pure []
    | some (uid, gid) =>
        pure [js "-u", (Number.ofInt uid).toText ++ js ":" ++ (Number.ofInt gid).toText]

def cloneInGitContainer (repoUrl targetDir : JsString) (sendLine : JsString → Agent Unit) :
    Agent Unit := do
  let containerTarget ← toContainerPath settings targetDir (js "Clone target")
  await (← call (.mkdirSync (Path.dirname targetDir)))
  let mount := (← cloneWorkspaceMount settings) ++ js ":/workspace"
  sendLine (js "[BuildWorkspaceService] Cloning source in git container...\nFrom: " ++ repoUrl ++
    js "\nInto: " ++ containerTarget)
  let userArgs ← dockerRunUserArgs settings
  DockerCli.run ([js "run", js "--rm"] ++ userArgs ++
    [js "-v", mount, js "alpine/git", js "clone", repoUrl, containerTarget])
    (js "git clone container") none sendLine

/-- The repositories one after the other, each in a directory of its name. -/
def cloneEach (baseDir : JsString) (sendLine : JsString → Agent Unit) :
    List JsString → Agent Unit
  | [] => pure ()
  | url :: rest => do
      cloneInGitContainer settings url (Path.join [baseDir, repoName url]) sendLine
      cloneEach baseDir sendLine rest

def cloneAll (sourceUrl : SourceUrl) (baseDir : JsString) (sendLine : JsString → Agent Unit) :
    Agent JsString := do
  match (normalizeSourceRepositories sourceUrl).map (·.url) with
  | [url] => do
      cloneInGitContainer settings url baseDir sendLine
      sendLine (js "[BuildWorkspaceService] Clone done.")
      pure baseDir
  | urls => do
      await (← call (.mkdirSync baseDir))
      cloneEach settings baseDir sendLine urls
      sendLine (js "[BuildWorkspaceService] All Repository Successfully Cloned.")
      match urls with
      | [] => throw (JsError.typeError (js "Cannot read properties of undefined (reading 'split')"))
      | url :: _ => pure (Path.join [baseDir, repoName url])

def resolveBuildContext (baseDir : JsString) (rootDirectory : Option JsString) :
    Agent JsString := do
  let cleanRoot := trim (rootDirectory.getD [])
  if cleanRoot = [] ∨ cleanRoot = js "." then pure baseDir
  else
    let resolved := Path.resolve settings.cwd baseDir cleanRoot
    let relative := Path.relative settings.cwd baseDir resolved
    if startsWith relative (js "..") || Path.isAbsolute relative then
      throw (.error (js "Root directory must stay inside the cloned repository."))
    else if ← call (.existsSync resolved) then
      if ← await (← call (.isDirectory resolved)) then pure resolved
      else throw (.error (js "Root directory not found: " ++ cleanRoot))
    else throw (.error (js "Root directory not found: " ++ cleanRoot))

/-- The entries of the directory; a failure of one is skipped. -/
def chmodEach (buildDir : JsString) : List JsString → Agent Unit
  | [] => pure ()
  | file :: rest => do
      let _ ← call (.chmodSync (Path.join [buildDir, file]))
      chmodEach buildDir rest

def applyBuildPermissions (buildDir : JsString) : Agent Unit := do
  await (← call (.chmodSync buildDir))
  let files ← await (← call (.readdirSync buildDir))
  chmodEach buildDir files

end OpticsAgent.Docker
