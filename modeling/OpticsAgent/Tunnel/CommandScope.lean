import Mathlib
import OpticsAgent.Docker.LifecycleSteps
import OpticsAgent.Tunnel.DeployOutcome

/-!
What the tasks of the agent may touch. A command works on the one service it
names: its calls address the project, the container, the image and the
directories of that service, and its reports and rows are under its index. A
docker event makes the agent look and report, and change nothing. So of what the
tasks do nothing changes something in docker that no command named. A deployment
asked for by `POST /v1/service/deploy` and the update of the agent are no tasks.
-/

namespace OpticsAgent.Tunnel

open OpticsAgent.Ecma OpticsAgent.Node OpticsAgent.Lib OpticsAgent.Docker OpticsAgent.Docker.Agent
open OpticsAgent.Service

/-- Operations on what is kept and reported of service `i`. -/
def KeptUnder (i : ℤ) : BookOp → Prop
  | .now | .tracked | .turn => True
  | .track j _ => j = i
  | .storeSnapshot snapshot => snapshot.serviceIndex = i
  | .emit emission => emission.serviceIndex = i
  | .sendUpdate j .. => j = i
  | .findMarker j .. => j = i
  | .createMarker marker => marker.serviceIndex = i
  | .deleteMarkers j => j = i
  | .deleteServices j => j = i
  | .updateServices j .. => j = i

variable (settings : Settings)

/-- The name docker knows the service of a command by. -/
def Command.dockerName : Command → JsString
  | .deploy data | .redeploy data => data.dockerName settings
  | .start payload | .stop payload | .containerStart payload _ | .containerStop payload _
  | .containerRestart payload _ | .delete payload _ | .syncContainerStatus payload =>
      toDockerName settings.casing payload.serviceName

/-- The calls a command makes beside looking at the containers. -/
def Command.Calls (command : Command) (c : Call) : Prop :=
  match command with
  | .deploy data | .redeploy data => DeployCall settings data c
  | .start _ => RestartCall (command.dockerName settings) c
  | .stop _ => StopCall (command.dockerName settings) c
  | .containerStart _ containerName => c = .startContainer containerName
  | .containerStop _ containerName => c = .stopContainer containerName
  | .containerRestart _ containerName => c = .restartContainer containerName
  | .delete _ deleteScope => DeleteCall settings (command.dockerName settings) deleteScope c
  | .syncContainerStatus _ => False

/-- What a command may do. -/
def Command.Serves (command : Command) : Op → Prop
  | .books op => KeptUnder command.serviceIndex op
  | .call c => command.Calls settings c ∨ SnapshotCall settings (command.dockerName settings) c

/-- The container, the image or the project a call starts, stops, builds or
removes. What a helper container clones or removes has no name in docker. -/
def subject : Call → Option JsString
  | .startContainer name | .stopContainer name | .restartContainer name | .removeContainer name
  | .removeImage name => some name
  | .createContainer spec => some spec.name
  | .buildImage _ _ tag => some (tag.takeWhile (· ≠ 58))
  | .run (_ :: flag :: project :: _) _ => if flag = js "-p" then some project else none
  | _ => none

/-- The names a command gives: of its service, and of a container of it. -/
def Command.Names (command : Command) (name : JsString) : Prop :=
  name = command.dockerName settings ∨
    match command with
    | .containerStart _ containerName | .containerStop _ containerName
    | .containerRestart _ containerName => name = containerName
    | _ => False

/-- Operations that only look and report. -/
def Watches : Op → Prop
  | .books .tracked | .books (.track ..) | .books (.storeSnapshot _) | .books (.emit _) => True
  | .books _ => False
  | .call c => ∃ name, SnapshotCall settings name c

-- The programs below decide on texts; their branches are not to be evaluated.
attribute [local irreducible] Program.All

/-! ## The steps every command shares -/

section Shared

variable {P : Op → Prop} {i : ℤ} (hkept : ∀ op, KeptUnder i op → P (.books op))

include hkept

theorem all_emitToHub {emission : Emission} (h : emission.serviceIndex = i) :
    (emitToHub emission).All P :=
  .ask (hkept _ h)

theorem all_emitSnapshot {snapshot : ContainerSnapshot} (h : snapshot.serviceIndex = i) :
    (emitSnapshot snapshot).All P := by
  unfold emitSnapshot storeSnapshot
  exact .bind (.ask (hkept _ h)) fun _ => all_emitToHub hkept h

theorem all_trackService (serviceName deployPreset : JsString) :
    (trackService settings i serviceName deployPreset).All P := by
  unfold trackService track
  exact .ask (hkept _ rfl)

/-- What comes behind a look at the containers gets a snapshot of the service. -/
theorem all_syncThen {α : Type} {serviceName : JsString} (deployPreset : JsString)
    (fallback : ContainerStatus) {f : ContainerSnapshot → Agent α}
    (hlook : ∀ c, SnapshotCall settings (toDockerName settings.casing serviceName) c → P (.call c))
    (hf : ∀ containers, (f (snapshotFromContainers i containers)).All P) :
    (syncContainerStatus settings i serviceName deployPreset fallback >>= f).All P := by
  unfold Service.syncContainerStatus
  simp only [Program.bind_bind]
  apply Program.All.bind (all_trackService settings hkept _ _)
  intro _
  apply Program.All.bind (all_getContainerSnapshot settings hlook _)
  intro containers
  apply Program.All.bind (all_emitSnapshot hkept rfl)
  intro _
  split_ifs
  · rw [Program.bind_bind]
    exact .bind (all_emitToHub hkept rfl) fun _ => hf containers
  · exact hf containers

/-- ... also when it is waited for. -/
theorem all_syncWaited {α : Type} {serviceName : JsString} (deployPreset : JsString)
    (fallback : ContainerStatus) {f : ContainerSnapshot → Agent α}
    (hlook : ∀ c, SnapshotCall settings (toDockerName settings.casing serviceName) c → P (.call c))
    (hf : ∀ containers, (f (snapshotFromContainers i containers)).All P) :
    (awaited (syncContainerStatus settings i serviceName deployPreset fallback) >>= f).All P := by
  unfold awaited
  rw [Program.bind_bind]
  apply all_syncThen settings hkept _ _ hlook
  intro containers
  rw [Program.bind_bind]
  exact .bind (.ask (hkept .turn trivial)) fun _ => hf containers

theorem all_updateServiceStatus (status : ServiceStatus) :
    (updateServiceStatus i status).All P := by
  unfold updateServiceStatus now
  exact .bind (.ask (hkept _ trivial)) fun _ => .ask (hkept _ rfl)

theorem all_removeRows (deleteScope : DeleteScope) : (removeRows i deleteScope).All P := by
  unfold removeRows now
  cases deleteScope with
  | service => exact .bind (.ask (hkept (.deleteServices _) rfl)) fun reply => all_await _ reply
  | containers =>
      apply Program.All.bind (Program.All.ask (hkept .now trivial))
      intro lastOnline
      exact .bind (.ask (hkept (.updateServices ..) rfl)) fun reply => all_await _ reply

theorem all_createServiceSessionMarker (serviceName : JsString) (event : MarkerEvent) :
    (createServiceSessionMarker i serviceName event).All P := by
  unfold createServiceSessionMarker now
  apply Program.All.bind (Program.All.ask (hkept .now trivial))
  intro timestamp
  apply Program.All.bind (Program.All.ask (hkept (.findMarker ..) rfl))
  intro reply
  apply Program.All.bind (all_await _ reply)
  intro duplicate
  apply all_ite
  · exact .pure ()
  · apply Program.All.bind (Program.All.ask (hkept
      (.createMarker ⟨i, serviceName, serviceName, event, timestamp⟩) rfl))
    intro reply
    exact .bind (all_await _ reply) fun _ => all_emitToHub hkept rfl

theorem all_serviceEmit {e : Emission} (h : e.serviceIndex = i) : (serviceEmit i e).All P := by
  cases e with
  | serviceStatus j status =>
      exact .bind (all_emitToHub hkept rfl) fun _ => all_updateServiceStatus hkept _
  | serviceLog => exact all_emitToHub hkept rfl
  | containerStatus => exact .pure ()
  | serviceLogMarkers => exact .pure ()

theorem all_deleteEmit {e : Emission} (h : e.serviceIndex = i) : (deleteEmit i e).All P := by
  cases e with
  | serviceStatus => exact all_emitToHub hkept rfl
  | serviceLog => exact all_emitToHub hkept rfl
  | containerStatus => exact .pure ()
  | serviceLogMarkers => exact .pure ()

omit hkept in
/-- A command between two looks at the containers. -/
theorem all_betweenSyncs {payload : ServicePayload} {fallback : ContainerStatus}
    {action : Agent Unit} (hkept : ∀ op, KeptUnder payload.serviceIndex op → P (.books op))
    (hlook : ∀ c, SnapshotCall settings (toDockerName settings.casing payload.serviceName) c →
      P (.call c))
    (haction : action.All P) : (betweenSyncs settings payload fallback action).All P := by
  unfold betweenSyncs
  apply all_syncWaited settings hkept _ _ hlook
  intro _
  apply Program.All.bind (all_awaited (hkept .turn trivial) haction)
  intro _
  exact all_syncThen settings hkept _ _ hlook fun _ => .pure ()

end Shared

/-! ## Every command -/

section Commands

variable {P : Op → Prop}

/-- What the pipeline of a deployment admits serves its service. -/
theorem serves_of_admits {data : DeployCommand} {due : Due} {op : Op}
    (h : (pipeline settings data).admits due op) : (Command.deploy data).Serves settings op := by
  match op with
  | .books .now | .books .turn => trivial
  | .books (.sendUpdate ..) => exact h
  | .books (.track ..) | .books (.emit _) | .books (.findMarker ..) | .books (.createMarker _) =>
      exact h.1
  | .books (.storeSnapshot snapshot) =>
      obtain ⟨⟨containers, rfl⟩, -⟩ := h
      rfl
  | .call c => exact .inl ⟨due, h⟩

theorem all_handleDeploy (data : DeployCommand) (event : MarkerEvent)
    (hserves : ∀ op, (Command.deploy data).Serves settings op → P op) :
    (handleDeploy settings data event).All P :=
  Program.Obeys.all (fun _ op (_ : True) hadmits =>
    ⟨hserves op (serves_of_admits settings hadmits), fun _ => trivial⟩) trivial
      (obeys_handleDeploy settings data event)

theorem all_handleDelete (payload : ServicePayload) (deleteScope : DeleteScope)
    (hserves : ∀ op, (Command.delete payload deleteScope).Serves settings op → P op) :
    (handleDelete settings payload deleteScope).All P := by
  have hkept : ∀ op, KeptUnder payload.serviceIndex op → P (.books op) := fun op h =>
    hserves (.books op) h
  have hlook : ∀ c, SnapshotCall settings (toDockerName settings.casing payload.serviceName) c →
      P (.call c) := fun c h => hserves (.call c) (.inr h)
  unfold handleDelete
  apply all_syncWaited settings hkept _ _ hlook
  intro _
  unfold v1DeleteService
  apply Program.All.bind
  · apply all_awaited (hkept .turn trivial)
    apply Program.All.bind (all_awaited (hkept .turn trivial)
      (all_deleteService (fun e h => all_deleteEmit hkept h)
        (hkept .now trivial) settings _ _ _ fun c h => hserves (.call c) (.inl h)))
    intro _
    apply Program.All.bind (Program.All.ask (hkept (.deleteMarkers _) rfl))
    intro reply
    apply Program.All.bind (all_await _ reply)
    intro _
    exact all_removeRows hkept deleteScope
  intro _
  unfold clearContainerStates storeSnapshot
  apply Program.All.bind (Program.All.ask (hkept
    (.storeSnapshot (snapshotFromContainers payload.serviceIndex [])) rfl))
  intro _
  exact .bind (all_emitToHub hkept rfl) fun _ => all_emitToHub hkept rfl

theorem all_withPayload {payload : ServicePayload} {handle : ServicePayload → Agent Unit}
    (h : (handle payload).All P) : (withPayload payload handle).All P := by
  unfold withPayload getServiceCommandPayload
  split_ifs
  · exact .pure ()
  · exact h

theorem all_handleContainer {payload : ServicePayload} {containerName : JsString}
    {fallback : ContainerStatus} {action : Agent Unit}
    (hkept : ∀ op, KeptUnder payload.serviceIndex op → P (.books op))
    (hlook : ∀ c, SnapshotCall settings (toDockerName settings.casing payload.serviceName) c →
      P (.call c))
    (haction : action.All P) :
    (handleContainer settings payload containerName fallback action).All P := by
  unfold handleContainer
  exact all_ite _ (.pure ()) (all_betweenSyncs settings hkept hlook haction)

/-- A command does nothing but serve. -/
theorem all_handleCommand (command : Command) (hserves : ∀ op, command.Serves settings op → P op) :
    (handleCommand settings command).All P := by
  have hkept : ∀ op, KeptUnder command.serviceIndex op → P (.books op) := fun op h =>
    hserves (.books op) h
  have hlook : ∀ c, SnapshotCall settings (command.dockerName settings) c → P (.call c) :=
    fun c h => hserves (.call c) (.inr h)
  have hcall : ∀ c, command.Calls settings c → P (.call c) := fun c h => hserves (.call c) (.inl h)
  have hnow := hkept .now trivial
  have hemit := fun (e : Emission) (h : e.serviceIndex = command.serviceIndex) =>
    all_serviceEmit hkept h
  cases command with
  | deploy data => exact all_handleDeploy settings data .deploy hserves
  | redeploy data => exact all_handleDeploy settings data .redeploy hserves
  | start payload =>
      refine all_withPayload (.bind (all_awaited (hkept .turn trivial)
        (all_createServiceSessionMarker hkept _ _)) fun _ => ?_)
      exact all_betweenSyncs settings hkept hlook (all_restartService hemit hnow settings _ _ hcall)
  | stop payload =>
      apply all_withPayload
      exact all_betweenSyncs settings hkept hlook (all_stopService hemit hnow settings _ _ hcall)
  | containerStart payload containerName =>
      apply all_withPayload
      exact all_handleContainer settings hkept hlook
        (all_containerAction hemit hnow _ (.ask (hcall _ rfl)) _ _)
  | containerStop payload containerName =>
      apply all_withPayload
      exact all_handleContainer settings hkept hlook
        (all_containerAction hemit hnow _ (.ask (hcall _ rfl)) _ _)
  | containerRestart payload containerName =>
      apply all_withPayload
      exact all_handleContainer settings hkept hlook
        (all_containerAction hemit hnow _ (.ask (hcall _ rfl)) _ _)
  | delete payload deleteScope =>
      exact all_withPayload (all_handleDelete settings payload deleteScope hserves)
  | syncContainerStatus payload =>
      apply all_withPayload
      exact all_syncWaited settings hkept _ _ hlook fun _ => all_emitToHub hkept rfl

theorem watches_onStatusEvent (event : DockerStatusEvent) :
    (onStatusEvent settings event).All (Watches settings) := by
  have hlook : ∀ name c, SnapshotCall settings name c → Watches settings (.call c) :=
    fun name c h => ⟨name, h⟩
  unfold onStatusEvent tracked
  apply Program.All.bind (Program.All.ask trivial)
  intro services
  split
  · exact .pure ()
  · unfold reportEvent emitContainerLifecycleLog emitToHub Service.syncContainerStatus
    apply Program.All.bind (Program.All.ask trivial)
    intro _
    apply Program.All.bind
    · apply Program.All.bind (Program.All.ask trivial)
      intro _
      apply Program.All.bind (all_getContainerSnapshot settings (hlook _) _)
      intro containers
      apply Program.All.bind (.bind (.ask trivial) fun _ => .ask trivial)
      intro _
      apply all_ite
      · exact .bind (.ask trivial) fun _ => .pure _
      · exact .pure _
    · exact fun _ => .pure ()

end Commands

/-! ## Every run -/

section Runs

variable {settings} {s : System} {events : List Happening} {k : ℕ} {task : Task}

/-- A protocol of one stage. -/
def within (P : Op → Prop) : Protocol Op Op.Reply Unit where
  admits _ op := P op
  next _ _ _ := ()

theorem within_of_all {P : Op → Prop} {program : Agent Unit} (h : program.All P) :
    program.Obeys (within P) () fun _ _ => True :=
  (Program.All.obeys (h.mono fun _ hop => ⟨hop, fun _ => rfl⟩)).mono fun _ _ _ => trivial

theorem forall_of_within {P : Op → Prop} {history : History} (h : (within P).Accepts () history) :
    ∀ e ∈ history, P e.op :=
  Protocol.Accepts.forall_of_closed (fun _ _ (_ : True) hop => ⟨hop, trivial⟩) trivial h

theorem recorded_run (hrun : (serviceSystem settings).run {} events = some s) :
    System.Recorded (fun k => System.history settings k {} events) s := by
  have hnone (origin : Origin) (program : Agent Unit) (h : False)
      (_ : System.Starts settings program origin) :
      program.Obeys (within fun _ => True) () fun _ _ => True := h.elim
  exact (System.history_run hnone hrun).1

theorem serves_history (hrun : (serviceSystem settings).run {} events = some s)
    (htask : s.tasks[k]? = some task) {command : Command}
    (horigin : task.origin = .command command) :
    ∀ e ∈ System.history settings k {} events, command.Serves settings e.op := by
  have hobeys (origin : Origin) (program : Agent Unit) (h : origin = .command command)
      (hstarts : System.Starts settings program origin) :
      program.Obeys (within (command.Serves settings)) () fun _ _ => True := by
    subst h
    obtain rfl : program = handleCommand settings command := hstarts
    exact within_of_all (all_handleCommand settings command fun _ h => h)
  obtain ⟨-, hfollow⟩ := System.history_run hobeys hrun
  exact forall_of_within (hfollow k task htask horigin).1

theorem events_watch (hrun : (serviceSystem settings).run {} events = some s)
    (htask : s.tasks[k]? = some task) {container : ContainerId}
    (horigin : task.origin = .event container) :
    ∀ e ∈ System.history settings k {} events, Watches settings e.op := by
  have hobeys (origin : Origin) (program : Agent Unit) (h : origin = .event container)
      (hstarts : System.Starts settings program origin) :
      program.Obeys (within (Watches settings)) () fun _ _ => True := by
    subst h
    obtain ⟨event, rfl⟩ := hstarts
    exact within_of_all (watches_onStatusEvent settings event)
  obtain ⟨-, hfollow⟩ := System.history_run hobeys hrun
  exact forall_of_within (hfollow k task htask horigin).1

/-- The command of a task is one that arrived. -/
theorem origin_arrived {t : System} (hrun : (serviceSystem settings).run t events = some s)
    (hmem : task ∈ s.tasks) {command : Command} (horigin : task.origin = .command command) :
    (∃ old ∈ t.tasks, old.origin = .command command) ∨ .command command ∈ events := by
  induction events generalizing t with
  | nil =>
      obtain rfl := Option.some.inj hrun
      exact .inl ⟨task, hmem, horigin⟩
  | cons e rest ih =>
      obtain ⟨u, hu, hrest⟩ := Machine.run_cons hrun
      rcases ih hrest with ⟨old, hold, holdOrigin⟩ | hin
      · rcases System.step_cases settings hu with ⟨c, rfl, rfl⟩ | ⟨container, name, rfl, rfl⟩ |
          ⟨container, event, -, rfl, rfl⟩ |
          ⟨j, other, op, next, reply, books, hj, -, -, rfl⟩ | ⟨n, done, books, rfl, rfl⟩
        · rcases List.mem_append.mp hold with hold | hnew
          · exact .inl ⟨old, hold, holdOrigin⟩
          · rw [List.mem_singleton.mp hnew] at holdOrigin
            cases holdOrigin
            exact .inr (List.mem_cons_self ..)
        · exact .inl ⟨old, hold, holdOrigin⟩
        · rcases List.mem_append.mp hold with hold | hnew
          · exact .inl ⟨old, hold, holdOrigin⟩
          · rw [List.mem_singleton.mp hnew] at holdOrigin
            cases holdOrigin
        · rcases List.mem_or_eq_of_mem_set hold with hold | rfl
          · exact .inl ⟨old, hold, holdOrigin⟩
          · exact .inl ⟨other, List.mem_of_getElem? hj, holdOrigin⟩
        · exact .inl ⟨old, hold, holdOrigin⟩
      · exact .inr (List.mem_cons_of_mem _ hin)

theorem takeWhile_imageTag {name : JsString} (h : IsDockerName name) (version : JsString) :
    (name ++ js ":" ++ version).takeWhile (· ≠ 58) = name := by
  have hname : ∀ c ∈ name, decide (c ≠ 58) = true := by
    rintro c hc
    have hunit := h.units c hc
    apply decide_eq_true
    rintro rfl
    exact absurd hunit (by decide)
  rw [List.append_assoc, List.takeWhile_append_of_pos hname]
  exact List.append_nil name

theorem subject_snapshotCall {name : JsString} {c : Call} (h : SnapshotCall settings name c) :
    subject c = none := by
  cases h <;> rfl

theorem subject_run {flag : JsString} (hflag : flag ≠ js "-p") (first : JsString)
    (more : List JsString) (cwd : Option JsString) : subject (.run (first :: flag :: more) cwd) =
      none := by
  cases more with
  | nil => rfl
  | cons project more => exact if_neg hflag

theorem subject_workspaceCall {c : Call} (h : WorkspaceCall settings c) : subject c = none := by
  cases h <;> rfl

theorem subject_deployCall {data : DeployCommand} {subjectName : JsString} {c : Call}
    (h : DeployCall settings data c) (hsubject : subject c = some subjectName) :
    subjectName = data.dockerName settings := by
  obtain ⟨due, h⟩ := h
  cases due with
  | stop | remove | start =>
      cases h
      exact (Option.some.inj hsubject).symm
  | helper =>
      rcases h with h | ⟨mount, -, rfl⟩
      · rw [subject_workspaceCall h] at hsubject
        cases hsubject
      · cases hsubject
  | clone begun checkout rest =>
      rcases h with h | h
      · rw [subject_workspaceCall h] at hsubject
        cases hsubject
      · obtain ⟨userArgs, mount, -, -⟩ := h
        rw [List.append_assoc, List.cons_append, List.cons_append, subject_run (by decide)]
          at hsubject
        cases hsubject
  | image src =>
      cases h
      rw [← Option.some.inj hsubject]
      exact takeWhile_imageTag (isDockerName_toDockerName _ _) _
  | create =>
      cases h
      exact (Option.some.inj hsubject).symm.trans dockerName_idem
  | up =>
      cases h
      exact (Option.some.inj hsubject).symm
  | env | override =>
      obtain ⟨content, rfl⟩ := h
      cases hsubject
  | showing occasion part =>
      cases occasion with
      | looked =>
          cases part with
          | store =>
              rw [subject_snapshotCall h] at hsubject
              cases hsubject
          | track | tell => exact h.elim
      | greeting | expected => exact h.elim
  | inspect | clear | spread | parent | find | enter | permit | list | permitEach | composeYml
  | composeYaml | services | source =>
      cases h
      cases hsubject
  | marker | newMarker | markerTold | building | starting | running | status | observed | halted
  | failed | rejected => exact h.elim

theorem subject_deleteCall {name subjectName : JsString} {deleteScope : DeleteScope} {c : Call}
    (h : DeleteCall settings name deleteScope c) (hsubject : subject c = some subjectName) :
    subjectName = name := by
  cases h with
  | project => cases deleteScope <;> exact (Option.some.inj hsubject).symm
  | container h =>
      cases h with
      | inspect => cases hsubject
      | stop => exact (Option.some.inj hsubject).symm
      | remove => exact (Option.some.inj hsubject).symm
  | image => exact (Option.some.inj hsubject).symm
  | workspace _ h => cases h <;> cases hsubject
  | clean _ h => cases h <;> cases hsubject

theorem names_of_calls {command : Command} {c : Call} {name : JsString}
    (h : command.Calls settings c ∨ SnapshotCall settings (command.dockerName settings) c)
    (hsubject : subject c = some name) : command.Names settings name := by
  rcases h with h | h
  · cases command with
    | deploy data => exact .inl (subject_deployCall h hsubject)
    | redeploy data => exact .inl (subject_deployCall h hsubject)
    | start payload => cases h <;> exact .inl (Option.some.inj hsubject).symm
    | stop payload => cases h <;> exact .inl (Option.some.inj hsubject).symm
    | containerStart payload containerName =>
        obtain rfl : c = .startContainer containerName := h
        exact .inr (Option.some.inj hsubject).symm
    | containerStop payload containerName =>
        obtain rfl : c = .stopContainer containerName := h
        exact .inr (Option.some.inj hsubject).symm
    | containerRestart payload containerName =>
        obtain rfl : c = .restartContainer containerName := h
        exact .inr (Option.some.inj hsubject).symm
    | delete payload deleteScope => exact .inl (subject_deleteCall h hsubject)
    | syncContainerStatus payload => exact h.elim
  · rw [subject_snapshotCall h] at hsubject
    cases hsubject

/-- What changes something belongs to the task of a command that had arrived and
names it. -/
theorem command_of_change (hrun : (serviceSystem settings).run {} events = some s)
    {e : Exchange Op Op.Reply} (hmem : e ∈ System.history settings k {} events) {c : Call}
    (hop : e.op = .call c) {name : JsString} (hsubject : subject c = some name) :
    ∃ task command, s.tasks[k]? = some task ∧ task.origin = .command command ∧
      .command command ∈ events ∧ command.Names settings name := by
  have hlt : k < s.tasks.length := by
    by_contra hge
    rw [(recorded_run hrun).future k (by omega)] at hmem
    cases hmem
  obtain ⟨task, htask⟩ : ∃ task, s.tasks[k]? = some task := ⟨_, List.getElem?_eq_getElem hlt⟩
  cases horigin : task.origin with
  | command command =>
      have hserves := serves_history hrun htask horigin e hmem
      rw [hop] at hserves
      rcases origin_arrived hrun (List.mem_of_getElem? htask) horigin with ⟨old, hold, -⟩ | harrived
      · cases hold
      · exact ⟨task, command, htask, horigin, harrived, names_of_calls hserves hsubject⟩
  | event container =>
      have hwatches := events_watch hrun htask horigin e hmem
      rw [hop] at hwatches
      obtain ⟨found, hfound⟩ := hwatches
      rw [subject_snapshotCall hfound] at hsubject
      cases hsubject

end Runs

end OpticsAgent.Tunnel
