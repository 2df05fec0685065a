import Mathlib
import OpticsAgent.Docker.DockerName
import OpticsAgent.Ecma.Property
import OpticsAgent.Ecma.StringToNumber

/-!
What `deploy-command.util.ts` decides from the command alone.
-/

namespace OpticsAgent.Docker

open OpticsAgent.Ecma

variable (casing : CaseMapping)

/-- Every preset but `DOCKERFILE` is treated as a compose project. -/
def isComposePreset (deployPreset : JsString) : Bool :=
  casing.toUpperCase deployPreset != js "DOCKERFILE"

structure ServicePortMapping where
  hostPort : Number
  containerPort : Number
deriving DecidableEq

structure SourceRepository where
  url : JsString
  rootDirectory : Option JsString
deriving DecidableEq

/-- An entry of a list of sources. -/
inductive SourceEntry where
  | url (url : JsString)
  | repository (url : Option JsString) (rootDirectory : Option JsString)
deriving DecidableEq

inductive SourceUrl where
  | one (url : JsString)
  | many (entries : List SourceEntry)
deriving DecidableEq

structure DeployCommand where
  serviceIndex : ℤ
  sourceUrl : SourceUrl
  rootDirectory : Option JsString := none
  serviceName : JsString
  serviceVersion : JsString
  servicePort : Number
  serviceHostPort : Option Number := none
  serviceContainerPort : Option Number := none
  servicePortMappings : Option (List ServicePortMapping) := none
  deployPreset : JsString
  env : Option (Props JsString) := none
deriving DecidableEq

/-- An integer from 1 to 65535. -/
def isPort (x : Number) : Bool :=
  x.toInteger?.any fun n => 1 ≤ n ∧ n ≤ 65535

def resolvePortMappings (data : DeployCommand) : List ServicePortMapping :=
  let mappings := (data.servicePortMappings.getD []).filter fun mapping =>
    isPort mapping.hostPort && isPort mapping.containerPort
  if mappings ≠ [] then mappings
  else [⟨data.serviceHostPort.getD data.servicePort, data.serviceContainerPort.getD data.servicePort⟩]

/-- `rootDirectory?.trim().replace(/^\/+/, '') ?? ''`, or nothing. -/
def normalizeRootDirectory (rootDirectory : Option JsString) : Option JsString :=
  let value := ((rootDirectory.map trim).getD []).dropWhile (· = 47)
  if value = [] then none else some value

/-- `Array.isArray(sourceUrl) ? sourceUrl : [sourceUrl]`. -/
def SourceUrl.entries : SourceUrl → List SourceEntry
  | .one url => [.url url]
  | .many entries => entries

def SourceEntry.normalized : SourceEntry → SourceRepository
  | .url text => ⟨text, none⟩
  | .repository text rootDirectory => ⟨text.getD [], normalizeRootDirectory rootDirectory⟩

def normalizeSourceRepositories (sourceUrl : SourceUrl) : List SourceRepository :=
  (sourceUrl.entries.map SourceEntry.normalized).filter fun source => source.url ≠ []

def primaryRootDirectory (data : DeployCommand) : Option JsString :=
  (((normalizeSourceRepositories data.sourceUrl).head?.map (·.rootDirectory)).getD none).or
    (normalizeRootDirectory data.rootDirectory)

/-- `s.replace(/\.git$/, '')`. -/
def dropGitSuffix (s : JsString) : JsString :=
  if (js ".git").isSuffixOf s then s.take (s.length - 4) else s

/-- The last segment of the URL, without `.git`. -/
def repoName (url : JsString) : JsString :=
  dropGitSuffix ((splitUnit 47 url).getLast?.getD (js "repo"))

end OpticsAgent.Docker
