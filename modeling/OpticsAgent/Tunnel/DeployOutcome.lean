import Mathlib
import OpticsAgent.Tunnel.DeletedService
import OpticsAgent.Tunnel.DeployOutline
import OpticsAgent.Tunnel.TaskHistory

/-!
What the Hub and the owner of a service can rely on while deployments run next
to other commands and to docker events. The results are about the history and
the reports of a task in a run of the whole system.
-/

namespace OpticsAgent.Tunnel

open OpticsAgent.Ecma OpticsAgent.Node OpticsAgent.Lib OpticsAgent.Docker OpticsAgent.Docker.Agent
open OpticsAgent.Service

/-! ## Readings of a history -/

/-- The deployment a command asks for. -/
def Command.deployment : Command → Option DeployCommand
  | .deploy data | .redeploy data => some data
  | _ => none

/-- The task of a DEPLOY or REDEPLOY. -/
def Origin.Deploys (data : DeployCommand) (origin : Origin) : Prop :=
  ∃ c, origin = .command c ∧ c.deployment = some data

/-- The task has ended, with or without an error. -/
def Over (program : Agent Unit) : Prop := ∀ op next, program ≠ .perform op next

theorem over_of_isDone {program : Agent Unit} (h : program.isDone = true) : Over program := by
  rintro op next rfl
  cases h

def reportedStatus : Emission → Option ServiceStatus
  | .serviceStatus _ status => some status
  | _ => none

/-- The statuses among some emissions. -/
def statuses (reports : List Emission) : List ServiceStatus := reports.filterMap reportedStatus

/-- The exchange brought the project `name` up, or started the container. -/
def launched (name : JsString) (e : Exchange Op Op.Reply) : Bool :=
  match e with
  | ⟨.call (.run args cwd), reply⟩ =>
      args = composeUpArgs name && (Call.run args cwd).succeeds reply
  | ⟨.call (.startContainer container), reply⟩ => (Call.startContainer container).succeeds reply
  | _ => false

/-- The database rejected what the marker of a session needs. -/
def refused (e : Exchange Op Op.Reply) : Bool :=
  match e with
  | ⟨.books (.findMarker ..), reply⟩ => !succeeds (α := Bool) reply
  | ⟨.books (.createMarker _), reply⟩ => !succeeds (α := Unit) reply
  | _ => false

/-- The statuses a deployment has reported in a stage. -/
def DeployStage.Told : DeployStage → List ServiceStatus → Prop
  | .received, told | .rejected, told => told = []
  | .clearing, told | .cloned, told | .built, told => told = [.building]
  | .starting, told => told = [.building, .starting]
  | .launched, told | .broken, told => told = [.building] ∨ told = [.building, .starting]
  | .running, told => told = [.building, .running] ∨ told = [.building, .starting, .running]
  | .observed, told => ∃ seen,
      told = [.building, .running, seen] ∨ told = [.building, .starting, .running, seen]
  | .failed, told => told = [.building, .failed] ∨ told = [.building, .starting, .failed]

/-- Something was started. -/
def DeployStage.Up (q : DeployStage) : Prop := q = .launched ∨ q = .running ∨ q = .observed

variable {settings : Settings} {name : JsString} {i : ℤ}

theorem told_report {q q' : DeployStage} {told : List ServiceStatus} {status : ServiceStatus}
    (h : q.Told told) (hreport : q.report status = some q') : q'.Told (told ++ [status]) := by
  unfold DeployStage.report at hreport
  split at hreport
  · cases hreport
    rw [show told = [] from h]
    rfl
  · cases hreport
    rw [show told = [.building] from h]
    rfl
  · cases hreport
    rcases h with rfl | rfl
    · exact .inl rfl
    · exact .inr rfl
  · cases hreport
    rw [show told = [.building] from h]
    exact .inl rfl
  · cases hreport
    rw [show told = [.building] from h]
    exact .inl rfl
  · cases hreport
    rw [show told = [.building, .starting] from h]
    exact .inr rfl
  · cases hreport
    rcases h with rfl | rfl
    · exact .inl rfl
    · exact .inr rfl
  · cases hreport
    rcases h with rfl | rfl
    · exact ⟨_, .inl rfl⟩
    · exact ⟨_, .inr rfl⟩
  · cases hreport

theorem told_advance {q q' : DeployStage} {told : List ServiceStatus} {c : Call}
    {succeeded : Bool} (h : q.Told told) (hadvance : Advance settings name q c succeeded q') :
    q'.Told told := by
  cases hadvance with
  | looked | removed | created => exact h
  | cloned _ _ hq =>
      rcases hq with rfl | rfl
      · exact h
      · exact h
  | built => exact h
  | up => exact .inl h
  | started => exact .inr h
  | broke _ _ hq =>
      rcases hq with (rfl | rfl) | rfl
      · exact .inl h
      · exact .inl h
      · exact .inr h

/-! ## What a stage says of the history -/

/-- The statuses told, whether something was started and whether the marker was
rejected, as the stage says. -/
structure Reached (name : JsString) (q : DeployStage) (history : History) : Prop where
  told : q.Told (statuses (emissions history))
  up : q.Up ↔ ∃ e ∈ history, launched name e = true
  unmarked : q = .rejected ↔ ∃ e ∈ history, refused e = true

theorem statuses_append_one (history : History) (e : Exchange Op Op.Reply) :
    statuses (emissions (history ++ [e])) =
      statuses (emissions history) ++ statuses (emissionOf e).toList := by
  have hone : emissions [e] = (emissionOf e).toList := by
    cases he : emissionOf e <;> simp [emissions, he]
  rw [emissions_append, hone]
  exact List.filterMap_append

theorem exists_append_one {p : Exchange Op Op.Reply → Bool} {history : History}
    {e : Exchange Op Op.Reply} :
    (∃ e' ∈ history ++ [e], p e' = true) ↔ (∃ e' ∈ history, p e' = true) ∨ p e = true := by
  simp [or_and_right, exists_or]

/-- An exchange that tells no status, starts nothing and leaves the stage. -/
theorem Reached.quiet {q : DeployStage} {history : History} {e : Exchange Op Op.Reply}
    (h : Reached name q history) (hstatus : statuses (emissionOf e).toList = [])
    (hlaunched : launched name e = false) (hrefused : refused e = false) :
    Reached name q (history ++ [e]) where
  told := by
    rw [statuses_append_one, hstatus, List.append_nil]
    exact h.told
  up := by rw [exists_append_one, hlaunched, h.up]; simp
  unmarked := by rw [exists_append_one, hrefused, h.unmarked]; simp

/-- A query about the marker, at the start. -/
theorem Reached.queried {history : History} {e : Exchange Op Op.Reply}
    (h : Reached name .received history) (hstatus : statuses (emissionOf e).toList = [])
    (hlaunched : launched name e = false) :
    Reached name (if refused e = true then .rejected else .received) (history ++ [e]) := by
  by_cases hrefused : refused e = true
  · rw [if_pos hrefused]
    refine ⟨?_, ?_, ?_⟩
    · rw [statuses_append_one, hstatus, List.append_nil]
      exact h.told
    · rw [exists_append_one, hlaunched, ← h.up]
      simp [DeployStage.Up]
    · rw [exists_append_one, hrefused]
      simp
  · rw [if_neg hrefused]
    exact h.quiet hstatus hlaunched (Bool.not_eq_true _ ▸ hrefused)

theorem up_report {q q' : DeployStage} {status : ServiceStatus}
    (hreport : q.report status = some q') : q'.Up ↔ q.Up := by
  unfold DeployStage.report at hreport
  split at hreport <;> cases hreport <;> simp [DeployStage.Up]

theorem rejected_report {q q' : DeployStage} {status : ServiceStatus}
    (hreport : q.report status = some q') : q' = .rejected ↔ q = .rejected := by
  unfold DeployStage.report at hreport
  split at hreport <;> cases hreport <;> simp

theorem rejected_advance {q q' : DeployStage} {c : Call} {succeeded : Bool}
    (h : Advance settings name q c succeeded q') : q' = .rejected ↔ q = .rejected := by
  cases h with
  | looked => exact Iff.rfl
  | cloned _ _ hq => rcases hq with rfl | rfl <;> simp
  | broke _ _ hq => rcases hq with (rfl | rfl) | rfl <;> simp
  | _ => simp

theorem succeeds_of_launched {c : Call} {reply : c.Reply}
    (h : launched name ⟨.call c, reply⟩ = true) : c.succeeds reply = true := by
  cases c with
  | run args cwd => exact (Bool.and_eq_true_iff.mp h).2
  | startContainer container => exact h
  | _ => cases h

/-- A call that only looks, changes files, or removes what is there starts nothing. -/
theorem launched_quiet (settings : Settings) {c : Call} {reply : c.Reply}
    (h : LookCall c ∨ FileCall c ∨ CleanCall settings (Path.join [settings.buildRoot, name]) c ∨
      RemovalCall name c ∨ SnapshotCall settings name c) :
    launched name ⟨.call c, reply⟩ = false := by
  rcases h with h | h | h | h | h
  · cases h <;> rfl
  · cases h <;> rfl
  · cases h <;> rfl
  · cases h <;> rfl
  · cases h <;> rfl

theorem launched_clone {c : Call} {reply : c.Reply} (h : CloneCall c) :
    launched name ⟨.call c, reply⟩ = false := by
  obtain ⟨more⟩ := h
  have hne : js "run" :: js "--rm" :: more ≠ composeUpArgs name := fun h =>
    absurd (List.cons.inj h).1 (by decide)
  simp [launched, hne]

theorem DeployStage.Preparing.not_up {q : DeployStage} (h : q.Preparing) : ¬q.Up := by
  rcases h with rfl | rfl <;> simp [DeployStage.Up]

theorem launched_advance {q q' : DeployStage} {c : Call} {reply : c.Reply} {succeeded : Bool}
    (hreply : c.succeeds reply = succeeded) (h : Advance settings name q c succeeded q') :
    q'.Up ↔ q.Up ∨ launched name ⟨.call c, reply⟩ = true := by
  cases h with
  | looked _ _ _ h =>
      rw [launched_quiet settings (h.imp_right (Or.imp_right fun h => .inr (.inr h)))]
      simp
  | removed _ _ h =>
      rw [launched_quiet settings (.inr (.inr (h.imp_right .inl)))]
      simp
  | cloned _ _ hq h =>
      rw [launched_clone h]
      refine iff_of_false (by simp [DeployStage.Up]) ?_
      simpa using hq.not_up
  | built => simp [DeployStage.Up, launched]
  | up => simp [DeployStage.Up, launched, hreply]
  | created => simp [launched]
  | started => simp [DeployStage.Up, launched, hreply]
  | broke _ _ hq =>
      have hnot : ¬q.Up := by
        rcases hq with hq | rfl
        · exact hq.not_up
        · simp [DeployStage.Up]
      have hlaunched : ¬launched name ⟨.call c, reply⟩ = true := fun h => by
        rw [succeeds_of_launched h] at hreply
        cases hreply
      exact iff_of_false (by simp [DeployStage.Up]) (not_or.mpr ⟨hnot, hlaunched⟩)

theorem reached_start : Reached name .received [] where
  told := rfl
  up := by simp [DeployStage.Up]
  unmarked := by simp

theorem Reached.step {q : DeployStage} {history : History} {e : Exchange Op Op.Reply}
    (h : Reached name q history) (hadmits : (outline settings name i).admits q e.op) :
    Reached name ((outline settings name i).next q e.op e.reply) (history ++ [e]) := by
  obtain ⟨op, reply⟩ := e
  match op, reply with
  | .books (.emit (.serviceStatus j status)), reply =>
      obtain ⟨q', hreport⟩ := Option.isSome_iff_exists.mp hadmits.2
      have hnext : (outline settings name i).next q (.books (.emit (.serviceStatus j status)))
          reply = q' := by
        change (q.report status).getD q = q'
        rw [hreport]
        rfl
      rw [hnext]
      refine ⟨?_, ?_, ?_⟩
      · rw [statuses_append_one]
        exact told_report h.told hreport
      · rw [exists_append_one, up_report hreport, h.up]
        simp [launched]
      · rw [exists_append_one, rejected_report hreport, h.unmarked]
        simp [refused]
  | .books (.emit (.serviceLog ..)), _ | .books (.emit (.containerStatus _)), _
  | .books (.emit (.serviceLogMarkers ..)), _ => exact h.quiet rfl rfl rfl
  | .books .now, _ | .books (.track ..), _ | .books .tracked, _ | .books (.storeSnapshot _), _
  | .books (.sendUpdate ..), _ | .books .turn, _ | .books (.deleteMarkers _), _
  | .books (.deleteServices _), _ | .books (.updateServices ..), _ => exact h.quiet rfl rfl rfl
  | .books (.findMarker j container event gte lte), reply =>
      obtain ⟨-, rfl⟩ := hadmits
      have hqueried := h.queried (e := ⟨.books (.findMarker j container event gte lte), reply⟩)
        rfl rfl
      cases reply with
      | ok _ => exact hqueried
      | error _ => exact hqueried
  | .books (.createMarker marker), reply =>
      obtain ⟨-, rfl⟩ := hadmits
      have hqueried := h.queried (e := ⟨.books (.createMarker marker), reply⟩) rfl rfl
      cases reply with
      | ok _ => exact hqueried
      | error _ => exact hqueried
  | .call c, reply =>
      have hadvance := advance_of_calls hadmits (c.succeeds reply)
      refine ⟨?_, ?_, ?_⟩
      · rw [statuses_append_one]
        exact (List.append_nil _).symm ▸ told_advance h.told hadvance
      · rw [exists_append_one, ← h.up]
        exact launched_advance rfl hadvance
      · refine ((rejected_advance hadvance).trans h.unmarked).trans ?_
        rw [exists_append_one]
        simp [refused]

theorem reached_of_accepts {history : History}
    (h : (outline settings name i).Accepts .received history) :
    Reached name ((outline settings name i).reach .received history) history :=
  Protocol.Accepts.invariant reached_start (fun _ _ _ hreached => hreached.step) h

/-- What is over has met its postcondition. -/
theorem Over.post {Q : Type} {P : Protocol Op Op.Reply Q} {program : Agent Unit} {q : Q}
    {post : Except JsError Unit → Q → Prop} (hover : Over program)
    (h : program.Obeys P q post) : ∃ r, post r q := by
  cases program with
  | pure a => exact ⟨.ok a, h⟩
  | throw e => exact ⟨.error e, h⟩
  | perform op next => exact (hover op next rfl).elim

/-! ## Deployments in a run -/

section Deployments

variable (settings : Settings)

/-- The outline of a deployment. -/
def outlineOf (data : DeployCommand) : Protocol Op Op.Reply DeployStage :=
  outline settings (data.dockerName settings) data.serviceIndex

variable {settings} {s : System} {events : List Happening} {k : ℕ} {task : Task}
  {data : DeployCommand}

theorem obeys_of_deploys {origin : Origin} {program : Agent Unit} (h : origin.Deploys data)
    (hstarts : System.Starts settings program origin) :
    program.Obeys (pipeline settings data) .marker fun _ due => due.Final := by
  obtain ⟨c, rfl, hc⟩ := h
  obtain rfl : program = handleCommand settings c := hstarts
  cases c with
  | deploy data' =>
      obtain rfl := Option.some.inj hc
      exact obeys_handleDeploy settings data' .deploy
  | redeploy data' =>
      obtain rfl := Option.some.inj hc
      exact obeys_handleDeploy settings data' .redeploy
  | _ => cases hc

/-- What a task of a deployment did, what it reported and what is left of it. -/
theorem deployment_run (hrun : (serviceSystem settings).run {} events = some s)
    (htask : s.tasks[k]? = some task) (hdeploys : task.origin.Deploys data) :
    s.reportsOf k = emissions (System.history settings k {} events) ∧
      (pipeline settings data).Accepts .marker (System.history settings k {} events) ∧
      task.program.Obeys (pipeline settings data)
        ((pipeline settings data).reach .marker (System.history settings k {} events))
        fun _ due => due.Final := by
  have hobeys (origin : Origin) (program : Agent Unit) (h : origin.Deploys data)
      (hstarts : System.Starts settings program origin) :
      program.Obeys (pipeline settings data) .marker fun _ due => due.Final :=
    obeys_of_deploys h hstarts
  obtain ⟨hrecorded, hfollow⟩ := System.history_run hobeys hrun
  obtain ⟨haccepts, hobeys⟩ := hfollow k task htask hdeploys
  exact ⟨hrecorded.reports k, haccepts, hobeys⟩

/-- ... in outline. -/
theorem outlined_run (hrun : (serviceSystem settings).run {} events = some s)
    (htask : s.tasks[k]? = some task) (hdeploys : task.origin.Deploys data) :
    (outlineOf settings data).Accepts .received (System.history settings k {} events) ∧
      Outlined ((pipeline settings data).reach .marker (System.history settings k {} events))
        ((outlineOf settings data).reach .received (System.history settings k {} events)) := by
  obtain ⟨-, haccepts, -⟩ := deployment_run hrun htask hdeploys
  have hstart : Outlined .marker .received := rfl
  exact haccepts.simulate outline_simulates hstart

/-- In every run, whatever happens in between, a deployment does step after step
what the pipeline of its own service has due. When it is over nothing is due any
more. -/
theorem deployments_keep_to_pipeline (hrun : (serviceSystem settings).run {} events = some s)
    (htask : s.tasks[k]? = some task) (hdeploys : task.origin.Deploys data) :
    s.reportsOf k = emissions (System.history settings k {} events) ∧
      (pipeline settings data).Accepts .marker (System.history settings k {} events) ∧
      (Over task.program → Due.Final
        ((pipeline settings data).reach .marker (System.history settings k {} events))) := by
  obtain ⟨hreports, haccepts, hobeys⟩ := deployment_run hrun htask hdeploys
  refine ⟨hreports, haccepts, fun hover => ?_⟩
  obtain ⟨-, hfinal⟩ := hover.post hobeys
  exact hfinal

/-- A deployment of service 2 to its end, while service 1 is stopped and a
container of it comes up. -/
def deployedApp : List Happening :=
  .command (.deploy redeployedApp) :: List.replicate 9 (.resume 0 willingAnswer) ++
    .command (.stop appPayload) :: startOf (js "app") ++
    List.replicate 10 (.resume 0 willingAnswer)

theorem run_deployedApp : ∃ s task, (serviceSystem hostSettings).run {} deployedApp = some s ∧
    s.tasks[0]? = some task ∧ task.origin = .command (.deploy redeployedApp) ∧
    Over task.program := by
  have hrun : ((serviceSystem hostSettings).run {} deployedApp).any (fun s =>
      s.tasks[0]?.any fun task => task.origin = .command (.deploy redeployedApp) ∧
        task.program.isDone) = true := by
    decide +kernel
  obtain ⟨s, hs, hall⟩ := (Option.any_eq_true _ _).mp hrun
  obtain ⟨task, htask, hdone⟩ := (Option.any_eq_true _ _).mp hall
  simp only [decide_eq_true_eq] at hdone
  exact ⟨s, task, hs, htask, hdone.1, over_of_isDone hdone.2⟩

theorem deployed_keeps_to_pipeline : ∃ s,
    (serviceSystem hostSettings).run {} deployedApp = some s ∧
    s.reportsOf 0 = emissions (System.history hostSettings 0 {} deployedApp) ∧
    (pipeline hostSettings redeployedApp).Accepts .marker
      (System.history hostSettings 0 {} deployedApp) ∧
    Due.Final ((pipeline hostSettings redeployedApp).reach .marker
      (System.history hostSettings 0 {} deployedApp)) := by
  obtain ⟨s, task, hrun, htask, horigin, hover⟩ := run_deployedApp
  obtain ⟨hreports, haccepts, hfinal⟩ := deployments_keep_to_pipeline hrun htask ⟨_, horigin, rfl⟩
  exact ⟨s, hrun, hreports, haccepts, hfinal hover⟩

/-- The statuses of a deployment that brought something up, and of one that did
not. -/
def OutcomeTold (started : Prop) (told : List ServiceStatus) : Prop :=
  (started ∧ ∃ seen : Option ServiceStatus,
    told = [.building, .running] ++ seen.toList ∨
    told = [.building, .starting, .running] ++ seen.toList) ∨
  (¬started ∧ (told = [.building, .failed] ∨ told = [.building, .starting, .failed]))

theorem outcomeTold_of_ended {name : JsString} {q : DeployStage} {history : History}
    (h : Reached name q history) (hended : q.Ended) :
    OutcomeTold (∃ e ∈ history, launched name e = true) (statuses (emissions history)) := by
  obtain ⟨htold, hup⟩ := h
  rw [OutcomeTold, ← hup]
  rcases hended with rfl | rfl | rfl
  · exact .inl ⟨.inr (.inl rfl), none, htold⟩
  · obtain ⟨seen, htold⟩ := htold
    exact .inl ⟨.inr (.inr rfl), some seen, htold⟩
  · exact .inr ⟨by simp [DeployStage.Up], htold⟩

/-- The database rejected the marker of the deployment. -/
def Refused (history : History) : Prop := ∃ e ∈ history, refused e = true

/-- A deployment that is over told the Hub one outcome, and RUNNING just when
docker had brought its project up or started its container. Only one whose
marker the database rejected told nothing, and it started nothing. -/
theorem deployment_outcome_told (hrun : (serviceSystem settings).run {} events = some s)
    (htask : s.tasks[k]? = some task) (hdeploys : task.origin.Deploys data)
    (hover : Over task.program) :
    (Refused (System.history settings k {} events) →
      statuses (s.reportsOf k) = [] ∧ ¬∃ e ∈ System.history settings k {} events,
        launched (data.dockerName settings) e = true) ∧
    (¬Refused (System.history settings k {} events) →
      OutcomeTold (∃ e ∈ System.history settings k {} events,
          launched (data.dockerName settings) e = true)
        (statuses (s.reportsOf k))) := by
  obtain ⟨hreports, -, hobeys⟩ := deployment_run hrun htask hdeploys
  obtain ⟨haccepts, houtlined⟩ := outlined_run hrun htask hdeploys
  obtain ⟨-, hfinal⟩ := hover.post hobeys
  have hclosed := closed_of_final hfinal houtlined
  have hreached := reached_of_accepts haccepts
  rw [hreports]
  refine ⟨fun hrefused => ?_, fun hunrefused => ?_⟩
  · have hrejected := hreached.unmarked.mpr hrefused
    have htold := hreached.told
    rw [hrejected] at htold
    refine ⟨htold, fun hlaunched => ?_⟩
    have hup := hreached.up.mpr hlaunched
    rw [hrejected] at hup
    simp [DeployStage.Up] at hup
  · exact outcomeTold_of_ended hreached
      (hclosed.resolve_right fun hrejected => hunrefused (hreached.unmarked.mp hrejected))

theorem deployed_tells_running : ∃ s, (serviceSystem hostSettings).run {} deployedApp = some s ∧
    (statuses (s.reportsOf 0)).getLast? = some .running ∧
    OutcomeTold (∃ e ∈ System.history hostSettings 0 {} deployedApp,
        launched (redeployedApp.dockerName hostSettings) e = true)
      (statuses (s.reportsOf 0)) := by
  obtain ⟨s, task, hrun, htask, horigin, hover⟩ := run_deployedApp
  have htold : ((serviceSystem hostSettings).run {} deployedApp).all (fun s =>
      (statuses (s.reportsOf 0)).getLast? = some .running) = true := by
    decide +kernel
  rw [hrun] at htold
  have hrunning := of_decide_eq_true htold
  obtain ⟨hnothing, houtcome⟩ := deployment_outcome_told hrun htask ⟨_, horigin, rfl⟩ hover
  refine ⟨s, hrun, hrunning, houtcome fun hrefused => ?_⟩
  rw [(hnothing hrefused).1] at hrunning
  cases hrunning

/-! ## What was cloned stays -/

/-- The sources are there, or the deployment is past them. -/
def DeployStage.PastClearing (q : DeployStage) : Prop := q ≠ .received ∧ q ≠ .clearing

/-- The calls that remove files of the workspace, or stop or remove a container. -/
inductive RemoveCall : Call → Prop
  | rmSync (path : JsString) : RemoveCall (.rmSync path)
  | helper (mount target : JsString) : RemoveCall (.runSync (helperRemovalArgs mount target) none)
  | stop (name : JsString) : RemoveCall (.stopContainer name)
  | remove (name : JsString) : RemoveCall (.removeContainer name)

def Removes (e : Exchange Op Op.Reply) : Prop := ∃ c, e.op = .call c ∧ RemoveCall c

def ClonesRepository (e : Exchange Op Op.Reply) : Prop := ∃ c, e.op = .call c ∧ CloneCall c

/-- The operation is a call to docker or the file system of a kind. -/
def asks (kind : Call → Bool) : Op → Bool
  | .call c => kind c
  | .books _ => false

theorem exists_of_asks {kind : Call → Bool} {op : Op} (h : asks kind op = true) :
    ∃ c, op = .call c ∧ kind c = true := by
  cases op with
  | call c => exact ⟨c, rfl, h⟩
  | books op => cases h

def startsHelper : Call → Bool
  | .run (first :: second :: _) none => first = js "run" ∧ second = js "--rm"
  | _ => false

theorem args_of_startsHelper {c : Call} (h : startsHelper c = true) :
    ∃ more, c = .run (js "run" :: js "--rm" :: more) none := by
  unfold startsHelper at h
  split at h
  · obtain ⟨rfl, rfl⟩ := of_decide_eq_true h
    exact ⟨_, rfl⟩
  · cases h

theorem not_calls_of_removes {name : JsString} {q : DeployStage} (hq : q.PastClearing) {c : Call}
    (h : RemoveCall c) : ¬q.calls settings name c := by
  intro hcalls
  cases q with
  | received => exact hq.1 rfl
  | clearing => exact hq.2 rfl
  | cloned =>
      rcases hcalls with hlook | hfile | hclone | ⟨dir, src, version, rfl⟩ | ⟨dir, rfl⟩
      · cases h <;> cases hlook
      · cases h <;> cases hfile
      · cases h <;> cases hclone
      · cases h
      · cases h
  | starting =>
      rcases hcalls with ⟨spec, -, rfl⟩ | rfl
      · cases h
      · cases h
  | running => cases h <;> cases hcalls
  | built => exact hcalls
  | launched => exact hcalls
  | broken => exact hcalls
  | observed => exact hcalls
  | failed => exact hcalls
  | rejected => exact hcalls

theorem pastClearing_report {q q' : DeployStage} {status : ServiceStatus} (hq : q.PastClearing)
    (hreport : q.report status = some q') : q'.PastClearing := by
  unfold DeployStage.report at hreport
  split at hreport <;> cases hreport <;> first | exact (hq.1 rfl).elim | exact ⟨nofun, nofun⟩

theorem pastClearing_advance {name : JsString} {q q' : DeployStage} {c : Call} {succeeded : Bool}
    (hq : q.PastClearing) (h : Advance settings name q c succeeded q') : q'.PastClearing := by
  cases h with
  | looked => exact hq
  | removed => exact (hq.2 rfl).elim
  | cloned | built | up | created | started | broke => exact ⟨nofun, nofun⟩

theorem pastClearing_next {name : JsString} {i : ℤ} {q : DeployStage} {e : Exchange Op Op.Reply}
    (hq : q.PastClearing) (hadmits : (outline settings name i).admits q e.op) :
    ((outline settings name i).next q e.op e.reply).PastClearing := by
  obtain ⟨op, reply⟩ := e
  match op, reply with
  | .books (.emit (.serviceStatus j status)), _ =>
      obtain ⟨q', hreport⟩ := Option.isSome_iff_exists.mp hadmits.2
      change ((q.report status).getD q).PastClearing
      rw [hreport]
      exact pastClearing_report hq hreport
  | .books (.emit (.serviceLog ..)), _ | .books (.emit (.containerStatus _)), _
  | .books (.emit (.serviceLogMarkers ..)), _ => exact hq
  | .books .now, _ | .books (.track ..), _ | .books .tracked, _ | .books (.storeSnapshot _), _
  | .books (.sendUpdate ..), _ | .books .turn, _ | .books (.deleteMarkers _), _
  | .books (.deleteServices _), _ | .books (.updateServices ..), _ => exact hq
  | .books (.findMarker ..), _ | .books (.createMarker _), _ => exact (hq.1 hadmits.2).elim
  | .call c, reply => exact pastClearing_advance hq (advance_of_calls hadmits (c.succeeds reply))

/-- A clone is only asked for while the sources are prepared. -/
theorem pastClearing_of_clone {name : JsString} {i : ℤ} {q : DeployStage}
    {e : Exchange Op Op.Reply} (hclone : ClonesRepository e)
    (hadmits : (outline settings name i).admits q e.op) :
    ((outline settings name i).next q e.op e.reply).PastClearing := by
  obtain ⟨op, reply⟩ := e
  obtain ⟨c, rfl, hclone⟩ := hclone
  have hadvance : Advance settings name q c (c.succeeds reply)
      (q.afterCall name c (c.succeeds reply)) :=
    advance_of_calls hadmits _
  change (q.afterCall name c (c.succeeds reply)).PastClearing
  obtain ⟨more⟩ := hclone
  cases hsucceeds : Call.succeeds (.run (js "run" :: js "--rm" :: more) none) reply with
  | true =>
      rw [afterCall_clone]
      exact ⟨nofun, nofun⟩
  | false => exact ⟨nofun, nofun⟩

/-- Once a deployment has asked for a clone it removes no files and no container
any more, whatever happens in between. -/
theorem clones_survive (hrun : (serviceSystem settings).run {} events = some s)
    (htask : s.tasks[k]? = some task) (hdeploys : task.origin.Deploys data)
    {front back : History} {e : Exchange Op Op.Reply}
    (hsplit : System.history settings k {} events = front ++ e :: back)
    (hclone : ClonesRepository e) :
    ∀ e' ∈ back, ¬Removes e' := by
  obtain ⟨haccepts, -⟩ := outlined_run hrun htask hdeploys
  rw [hsplit] at haccepts
  obtain ⟨-, hadmits, hback⟩ := Protocol.accepts_append.mp haccepts
  refine Protocol.Accepts.forall_of_closed (fun q e' hq hadmits => ⟨?_, ?_⟩)
    (pastClearing_of_clone hclone hadmits) hback
  · rintro ⟨c, hop, hremoves⟩
    rw [hop] at hadmits
    exact not_calls_of_removes hq hremoves hadmits
  · exact pastClearing_next hq hadmits

theorem deployed_removes_nothing_cloned : ∃ front e back,
    System.history hostSettings 0 {} deployedApp = front ++ e :: back ∧ ClonesRepository e ∧
    ∀ e' ∈ back, ¬Removes e' := by
  obtain ⟨s, task, hrun, htask, horigin, -⟩ := run_deployedApp
  have hasked : (System.history hostSettings 0 {} deployedApp).any (fun e =>
      asks startsHelper e.op) = true := by
    decide +kernel
  obtain ⟨e, hmem, hclone⟩ := List.any_eq_true.mp hasked
  obtain ⟨front, back, hsplit⟩ := List.append_of_mem hmem
  have hclones : ClonesRepository e := by
    obtain ⟨c, hop, hstarts⟩ := exists_of_asks hclone
    obtain ⟨more, rfl⟩ := args_of_startsHelper hstarts
    exact ⟨_, hop, .clone more⟩
  exact ⟨front, e, back, hsplit, hclones,
    clones_survive hrun htask ⟨_, horigin, rfl⟩ hsplit hclones⟩

end Deployments

end OpticsAgent.Tunnel
