import Mathlib
import OpticsAgent.Ecma.Coercion
import OpticsAgent.Lib.Machine
import OpticsAgent.Lib.Program

/-!
`NotifyService`: the connect request that waits for an answer, one row of the
`AgentInfo` table. A save and a response are tasks. A task stands at an `await`
until its operation on the table takes effect or the Hub answers, so a save may
come between any two operations of a response.

Requests are told apart by the number of their save; what the table held at the
start has the number 0.
-/

namespace OpticsAgent.Notify

open OpticsAgent.Ecma OpticsAgent.Lib

structure ConnectRequestPayload where
  workspaceOwnerName : JsString
  workspaceName : JsString
  workspaceCreatedAt : JsString
  workspaceIndex : Number
  requestDatetime : JsString
deriving DecidableEq

/-- `JSON.stringify(payload)`. -/
def ConnectRequestPayload.text (payload : ConnectRequestPayload) : JsString :=
  ((JsValue.obj
    [(js "workspaceOwnerName", .str payload.workspaceOwnerName),
      (js "workspaceName", .str payload.workspaceName),
      (js "workspaceCreatedAt", .str payload.workspaceCreatedAt),
      (js "workspaceIndex", .num payload.workspaceIndex),
      (js "requestDatetime", .str payload.requestDatetime)]).stringify).getD []

def pendingRequestKey : JsString := js "pending-connect-request"

def agentCodeKey : JsString := js "agent-code"

def agentUuidKey : JsString := js "agent-uuid"

/-! ## The service -/

/-- The operations on `agentInfo`, and `fetch` with its URL and body. -/
inductive NotifyOp where
  | findUnique (key : JsString)
  | upsert (key value : JsString)
  | deleteMany (key : JsString)
  | fetch (url body : JsString)
deriving DecidableEq

/-- The status of the HTTP response, or why there is none. -/
abbrev FetchAnswer := Except JsError ℕ

abbrev NotifyOp.Reply : NotifyOp → Type
  | .findUnique _ => Option JsString
  | .upsert .. => Unit
  | .deleteMany _ => Unit
  | .fetch .. => FetchAnswer

abbrev NotifyProgram := Program NotifyOp NotifyOp.Reply JsError Unit

def savePendingRequest (payload : ConnectRequestPayload) : NotifyProgram :=
  Program.ask (NotifyOp.upsert pendingRequestKey payload.text)

def clearPendingRequest : NotifyProgram :=
  Program.ask (NotifyOp.deleteMany pendingRequestKey)

/-- The body of the request to the Hub. -/
def responseBody (agentCode agentUuid : JsString) : JsString :=
  ((JsValue.obj [(js "agentCode", .str agentCode), (js "agentUuid", .str agentUuid)]).stringify).getD []

def respondToRequest (hubUrl : JsString) (accept : Bool) : NotifyProgram := do
  match ← Program.ask (NotifyOp.findUnique agentCodeKey) with
  | none => throw (.error (js "Agent code not found."))
  | some agentCode =>
      match ← Program.ask (NotifyOp.findUnique agentUuidKey) with
      | none => throw (.error (js "Agent uuid not found."))
      | some agentUuid =>
          let endpoint := if accept then js "accept" else js "reject"
          match ← Program.ask (NotifyOp.fetch (hubUrl ++ js "/v1/agent/connect/" ++ endpoint)
            (responseBody agentCode agentUuid)) with
          | .error e => throw e
          | .ok _ => clearPendingRequest

/-! ## Saves and responses at the same time -/

/-- What a task was started for. -/
inductive Origin where
  | save (payload : ConnectRequestPayload)
  | respond (accept : Bool)
deriving DecidableEq

/-- A task, with the last save and the pending request at its start, and what
the Hub answered it. -/
structure NotifyTask where
  origin : Origin
  program : NotifyProgram
  savesBefore : ℕ
  opening : Option ℕ
  answer : Option FetchAnswer := none

structure NotifyState where
  table : JsString → Option JsString
  saves : ℕ := 0
  tasks : List NotifyTask := []

/-- A request comes in, a response is asked for, another part of the agent
writes a row of its own, or a task goes on. The answer is for a task that waits
for the Hub. -/
inductive NotifyEvent where
  | save (payload : ConnectRequestPayload)
  | respond (accept : Bool)
  | write (key value : JsString)
  | proceed (task : ℕ) (answer : FetchAnswer)

namespace NotifyState

/-- The number of the request that waits. -/
def pending (s : NotifyState) : Option ℕ :=
  (s.table pendingRequestKey).map fun _ => s.saves

def start (s : NotifyState) (origin : Origin) (program : NotifyProgram) : NotifyState :=
  { s with tasks := s.tasks ++ [⟨origin, program, s.saves, s.pending, none⟩] }

def goOn (s : NotifyState) (k : ℕ) (task : NotifyTask) (program : NotifyProgram) : NotifyState :=
  { s with tasks := s.tasks.set k { task with program := program } }

def upsert (s : NotifyState) (key value : JsString) : NotifyState :=
  { s with
    table := Function.update s.table key (some value)
    saves := if key = pendingRequestKey then s.saves + 1 else s.saves }

def deleteMany (s : NotifyState) (key : JsString) : NotifyState :=
  { s with table := Function.update s.table key none }

/-- The operation of a task takes effect. -/
def proceed (s : NotifyState) (k : ℕ) (task : NotifyTask) (answer : FetchAnswer) :
    Option NotifyState :=
  match task.program with
  | .perform (.findUnique key) next => some (s.goOn k task (next (s.table key)))
  | .perform (.upsert key value) next => some ((s.upsert key value).goOn k task (next ()))
  | .perform (.deleteMany key) next => some ((s.deleteMany key).goOn k task (next ()))
  | .perform (.fetch _ _) next =>
      some (s.goOn k { task with answer := some answer } (next answer))
  | .pure _ => none
  | .throw _ => none

end NotifyState

variable (hubUrl : JsString)

def notifyStep (s : NotifyState) : NotifyEvent → Option NotifyState
  | .save payload => some (s.start (.save payload) (savePendingRequest payload))
  | .respond accept => some (s.start (.respond accept) (respondToRequest hubUrl accept))
  | .write key value => if key = pendingRequestKey then none else some (s.upsert key value)
  | .proceed k answer => (s.tasks[k]?).bind fun task => s.proceed k task answer

def notifySystem : Machine NotifyState NotifyEvent where
  step := notifyStep hubUrl

end OpticsAgent.Notify
