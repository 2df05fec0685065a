import Mathlib
import OpticsAgent.Docker.DeploySteps

/-!
What stopping, restarting and deleting a service asks docker for. Each of them
names the service or its build directory in every call, and a deletion that is
only of the containers touches neither the image nor the files.
-/

namespace OpticsAgent.Docker

open OpticsAgent.Ecma OpticsAgent.Node OpticsAgent.Lib Agent

/-- The calls that stop the service docker knows as `name`. -/
inductive StopCall (name : JsString) : Call → Prop
  | project : StopCall name (.run [js "compose", js "-p", name, js "stop"] none)
  | container : StopCall name (.stopContainer name)

/-- The calls that restart it. -/
inductive RestartCall (name : JsString) : Call → Prop
  | project : RestartCall name (.run [js "compose", js "-p", name, js "restart"] none)
  | container : RestartCall name (.restartContainer name)

/-- The calls that delete it, as far as `deleteScope` says. -/
inductive DeleteCall (settings : Settings) (name : JsString) (deleteScope : DeleteScope) :
    Call → Prop
  | project : DeleteCall settings name deleteScope (.run (composeDownArgs name deleteScope) none)
  | container {c : Call} (h : RemovalCall name c) : DeleteCall settings name deleteScope c
  | image (hscope : deleteScope = .service) :
      DeleteCall settings name deleteScope (.removeImage name)
  | workspace {c : Call} (hscope : deleteScope = .service) (h : WorkspaceCall settings c) :
      DeleteCall settings name deleteScope c
  | clean {c : Call} (hscope : deleteScope = .service)
      (h : CleanCall settings (Path.join [settings.buildRoot, name]) c) :
      DeleteCall settings name deleteScope c

-- The programs below decide on texts; their branches are not to be evaluated.
attribute [local irreducible] Program.All

section Lifecycle

variable {P : Op → Prop} {emit : HubEmit} {serviceIndex : ℤ}
  (hemit : ∀ e, e.serviceIndex = serviceIndex → (emit e).All P) (hnow : P (.books .now))

include hemit hnow

theorem all_containerAction (containerName : JsString)
    {action : Agent (Except JsError Unit)} (haction : action.All P) (doing done : JsString) :
    (containerAction serviceIndex containerName emit action doing done).All P := by
  have hlog := all_sendLogFor hemit hnow containerName .lifecycle
  unfold containerAction
  dsimp only
  apply Program.All.tryCatch
  · apply Program.All.bind (hlog _)
    intro _
    apply Program.All.bind haction
    intro reply
    exact .bind (all_await _ reply) fun _ => hlog _
  · exact fun e => hlog _

variable (settings : Settings) (serviceName deployPreset : JsString)

theorem all_stopService
    (hstop : ∀ c, StopCall (toDockerName settings.casing serviceName) c → P (.call c)) :
    (stopService settings serviceIndex serviceName deployPreset emit).All P := by
  have hlog := all_sendLogFor hemit hnow (toDockerName settings.casing serviceName) .lifecycle
  have hdone : ∀ _ : Unit, (do
      sendStatus emit serviceIndex .stopped
      sendLog emit serviceIndex (toDockerName settings.casing serviceName) .lifecycle
        (about (js "Service ") (toDockerName settings.casing serviceName)
          (js " stopped successfully.")) : Agent Unit).All P := fun _ =>
    .bind (hemit _ rfl) fun _ => hlog _
  unfold stopService
  dsimp only
  apply Program.All.tryCatch
  · apply Program.All.bind (hlog _)
    intro _
    apply all_ite
    · exact .bind (all_dockerCliRun (hstop _ .project) _ hlog) hdone
    · apply Program.All.bind (Program.All.ask (hstop _ .container))
      intro reply
      exact .bind (all_await _ reply) hdone
  · exact fun e => .bind (hemit _ rfl) fun _ => hlog _

theorem all_restartService
    (hrestart : ∀ c, RestartCall (toDockerName settings.casing serviceName) c → P (.call c)) :
    (restartService settings serviceIndex serviceName deployPreset emit).All P := by
  have hlog := all_sendLogFor hemit hnow (toDockerName settings.casing serviceName) .lifecycle
  have hdone : ∀ _ : Unit, (do
      sendStatus emit serviceIndex .running
      sendLog emit serviceIndex (toDockerName settings.casing serviceName) .lifecycle
        (about (js "Service ") (toDockerName settings.casing serviceName)
          (js " restarted successfully.")) : Agent Unit).All P := fun _ =>
    .bind (hemit _ rfl) fun _ => hlog _
  unfold restartService
  dsimp only
  apply Program.All.tryCatch
  · apply Program.All.bind (hemit _ rfl)
    intro _
    apply Program.All.bind (hlog _)
    intro _
    apply all_ite
    · exact .bind (all_dockerCliRun (hrestart _ .project) _ hlog) hdone
    · apply Program.All.bind (Program.All.ask (hrestart _ .container))
      intro reply
      exact .bind (all_await _ reply) hdone
  · exact fun e => .bind (hemit _ rfl) fun _ => hlog _

omit hemit hnow in
theorem all_removeService {name : JsString} {deleteScope : DeleteScope}
    {log : JsString → Agent Unit} (hlog : ∀ line, (log line).All P)
    (hdelete : ∀ c, DeleteCall settings name deleteScope c → P (.call c)) (isCompose : Bool) :
    (removeService settings name isCompose deleteScope log).All P := by
  have hdown := all_dockerCliRun (hdelete _ .project) (js "docker compose down") hlog
  have hcontainer := all_removeServiceContainer hlog (hdelete _ (.container .inspect))
    (hdelete _ (.container .stop)) (hdelete _ (.container .remove))
  unfold removeService
  by_cases hscope : deleteScope = .service
  · have hfiles : ∀ _ : Unit, (removeBuildDir settings (Path.join [settings.buildRoot, name])
        log).All P := fun _ =>
      all_removeBuildDir settings (fun c h => hdelete c (.workspace hscope h)) hlog
        fun c h => hdelete c (.clean hscope h)
    simp only [if_pos hscope]
    apply all_ite
    · exact .bind hdown hfiles
    · apply Program.All.bind hcontainer
      intro _
      exact .bind (all_removeServiceImage hlog (hdelete _ (.image hscope))) hfiles
  · simp only [if_neg hscope]
    apply all_ite
    · exact .bind hdown fun _ => .pure ()
    · exact .bind hcontainer fun _ => .pure ()

theorem all_deleteService (deleteScope : DeleteScope)
    (hdelete : ∀ c, DeleteCall settings (toDockerName settings.casing serviceName) deleteScope c →
      P (.call c)) :
    (deleteService settings serviceIndex serviceName deployPreset deleteScope emit).All P := by
  have hlog := all_sendLogFor hemit hnow (toDockerName settings.casing serviceName) .lifecycle
  unfold deleteService
  dsimp only
  apply Program.All.tryCatch
  · apply Program.All.bind (hlog _)
    intro _
    apply Program.All.bind (all_removeService settings hlog hdelete _)
    intro _
    exact .bind (hemit _ rfl) fun _ => hlog _
  · exact fun e => .bind (hemit _ rfl) fun _ => hlog _

end Lifecycle

end OpticsAgent.Docker
