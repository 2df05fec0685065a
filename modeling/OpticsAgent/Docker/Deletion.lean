import Mathlib
import OpticsAgent.Docker.ContainerLifecycle
import OpticsAgent.Docker.Lockstep

/-!
What the deletion of a service needs from docker and the file system: the steps
alone, without what is logged and without what is done about a failure. The
deletion makes just these calls as long as none of them fails.
-/

namespace OpticsAgent.Docker

open OpticsAgent.Ecma OpticsAgent.Node OpticsAgent.Lib Agent

/-- A call whose answer is not looked at. -/
def attempt (c : Call) : Agent Unit := do
  let _ ← call c
  pure ()

/-- The container of a Dockerfile service: stopped when it runs, and removed. -/
def containerRemovalSteps (si : JsString) : Agent Unit := do
  let running ← call (.inspectContainer si)
  if running = .ok true then
    attempt (.stopContainer si)
    attempt (.removeContainer si)
  else attempt (.removeContainer si)

def imageRemovalSteps (si : JsString) : DeleteScope → Agent Unit
  | .service => attempt (.removeImage si)
  | .containers => pure ()

variable (settings : Settings)

def directoryRemovalSteps (si : JsString) : DeleteScope → Agent Unit
  | .service => attempt (.rmSync (Path.join [settings.buildRoot, si]))
  | .containers => pure ()

def removalSteps (si : JsString) (isCompose : Bool) (deleteScope : DeleteScope) : Agent Unit :=
  if isCompose then do
    attempt (.run (composeDownArgs si deleteScope) none)
    directoryRemovalSteps settings si deleteScope
  else do
    containerRemovalSteps si
    imageRemovalSteps si deleteScope
    directoryRemovalSteps settings si deleteScope

/-- The status query and the removal. -/
def deletionSteps (serviceName deployPreset : JsString) (deleteScope : DeleteScope) :
    Agent Unit := do
  let si := toDockerName settings.casing serviceName
  let _ ← getContainerSnapshot settings si deployPreset
  removalSteps settings si (isComposePreset settings.casing deployPreset) deleteScope

/-! ## No removal step throws -/

theorem total_attempt (c : Call) : (attempt c).Total := fun _ => trivial

theorem total_containerRemovalSteps (si : JsString) : (containerRemovalSteps si).Total := by
  refine .bind (.ask _) fun running => ?_
  split_ifs
  · exact .bind (total_attempt _) fun _ => total_attempt _
  · exact total_attempt _

theorem total_imageRemovalSteps (si : JsString) (deleteScope : DeleteScope) :
    (imageRemovalSteps si deleteScope).Total := by
  cases deleteScope with
  | containers => exact .pure ()
  | service => exact total_attempt _

theorem total_directoryRemovalSteps (si : JsString) (deleteScope : DeleteScope) :
    (directoryRemovalSteps settings si deleteScope).Total := by
  cases deleteScope with
  | containers => exact .pure ()
  | service => exact total_attempt _

theorem total_removalSteps (si : JsString) (isCompose : Bool) (deleteScope : DeleteScope) :
    (removalSteps settings si isCompose deleteScope).Total := by
  cases isCompose with
  | true =>
      exact .bind (total_attempt _) fun _ => total_directoryRemovalSteps settings si deleteScope
  | false =>
      exact .bind (total_containerRemovalSteps si) fun _ =>
        .bind (total_imageRemovalSteps si deleteScope) fun _ =>
          total_directoryRemovalSteps settings si deleteScope

/-! ## The deletion is in step with its steps -/

section InStep

variable {W : Type} {host : Host W} {log : JsString → Agent Unit}

/-- An answer that is not an error. -/
theorem exists_ok_of_succeeds {α : Type} {reply : Except JsError α}
    (h : succeeds reply = true) : ∃ a, reply = .ok a := by
  cases reply with
  | ok a => exact ⟨a, rfl⟩
  | error e => cases h

/-- The other program makes the call and does not look at the answer. -/
theorem Lockstep.attempted (c : Call) {α β : Type} {f : c.Reply → Agent α} {q : Agent β}
    (hnext : ∀ reply, c.succeeds reply = true → Lockstep host (f reply) q) :
    Lockstep host (Agent.call c >>= f) (attempt c >>= fun _ => q) :=
  Lockstep.call c hnext

theorem lockstep_run (args : List JsString) (label : JsString) (cwd : Option JsString)
    (hlog : ∀ line, Calm (log line)) :
    Lockstep host (DockerCli.run args label cwd log) (attempt (.run args cwd)) := by
  refine .call _ fun process hok => ?_
  refine .calm (.bind (.forEachLine hlog _) fun _ => ?_) (.pure ())
  have hcode : process.ending = .ok (some 0) := by
    cases hending : process.ending with
    | error e => simp [Call.succeeds, hending] at hok
    | ok code => simpa [Call.succeeds, hending] using hok
  rw [hcode]
  exact .pure ()

theorem lockstep_removeServiceContainer (si : JsString) (hlog : ∀ line, Calm (log line)) :
    Lockstep host (removeServiceContainer si log) (containerRemovalSteps si) := by
  have hremoval : Lockstep host
      (do await (← call (.removeContainer si)); log (about (js "Container ") si (js " removed.")))
      (attempt (.removeContainer si)) := by
    refine .call _ fun reply hok => ?_
    obtain ⟨-, rfl⟩ := exists_ok_of_succeeds hok
    exact .calm (hlog _) (.pure ())
  refine .call _ fun reply hok => ?_
  obtain ⟨running, rfl⟩ := exists_ok_of_succeeds hok
  cases running with
  | false => exact hremoval
  | true =>
      change Lockstep host (log (about (js "Stopping container ") si (js "...")) >>= _) _
      refine .after (hlog _) fun _ => .attempted _ fun reply hok => ?_
      obtain ⟨-, rfl⟩ := exists_ok_of_succeeds hok
      exact hremoval

theorem lockstep_removeServiceImage (si : JsString) (hlog : ∀ line, Calm (log line)) :
    Lockstep host (removeServiceImage si log) (imageRemovalSteps si .service) := by
  refine .guarded ?_ (total_imageRemovalSteps si .service)
  refine .call _ fun reply hok => ?_
  obtain ⟨-, rfl⟩ := exists_ok_of_succeeds hok
  exact .calm (hlog _) (.pure ())

/-- The helper container is only tried after a failure. -/
theorem lockstep_removeBuildDir (si : JsString) :
    Lockstep host (removeBuildDir settings (Path.join [settings.buildRoot, si]) log)
      (directoryRemovalSteps settings si .service) := by
  refine .call _ fun reply hok => ?_
  obtain ⟨-, rfl⟩ := exists_ok_of_succeeds hok
  exact .calm (.pure ()) (.pure ())

theorem lockstep_removeService (si : JsString) (isCompose : Bool) (deleteScope : DeleteScope)
    (hlog : ∀ line, Calm (log line)) :
    Lockstep host (removeService settings si isCompose deleteScope log)
      (removalSteps settings si isCompose deleteScope) := by
  cases isCompose <;> cases deleteScope
  case true.service =>
    exact .bind (lockstep_run _ _ _ hlog) fun _ _ => lockstep_removeBuildDir settings si
  case true.containers =>
    exact .bind (lockstep_run _ _ _ hlog) fun _ _ => .pure () ()
  case false.service =>
    exact .bind (lockstep_removeServiceContainer si hlog) fun _ _ =>
      .bind (lockstep_removeServiceImage si hlog) fun _ _ => lockstep_removeBuildDir settings si
  case false.containers =>
    exact .bind (lockstep_removeServiceContainer si hlog) fun _ _ => .calm (.pure ()) (.pure ())

theorem lockstep_deleteService (serviceIndex : ℤ) (serviceName deployPreset : JsString)
    (deleteScope : DeleteScope) {emit : HubEmit} (hemit : ∀ e, Calm (emit e)) :
    Lockstep host
      (deleteService settings serviceIndex serviceName deployPreset deleteScope emit)
      (removalSteps settings (toDockerName settings.casing serviceName)
        (isComposePreset settings.casing deployPreset) deleteScope) := by
  have hlog := Calm.sendLog hemit serviceIndex (toDockerName settings.casing serviceName) .lifecycle
  refine .guarded ?_ (total_removalSteps settings _ _ _)
  refine .after (hlog _) fun _ => ?_
  exact .before (lockstep_removeService settings _ _ _ hlog) fun _ =>
    .bind (hemit _) fun _ => hlog _

end InStep

end OpticsAgent.Docker
