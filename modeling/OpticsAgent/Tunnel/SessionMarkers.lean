import Mathlib
import OpticsAgent.Tunnel.DeployPipeline

/-!
The session markers of commands that are handled at the same time. A command
looks for a marker like its own first and stores one when it finds none; both
are queries it waits for, so another command may look in between.
-/

namespace OpticsAgent.Tunnel

open OpticsAgent.Ecma OpticsAgent.Lib OpticsAgent.Docker OpticsAgent.Docker.Agent
open OpticsAgent.Service

/-! ## What stores no marker -/

/-- An operation that neither looks for a marker nor stores one. -/
def Unmarked : Op → Prop
  | .books (.findMarker ..) | .books (.createMarker _) => False
  | _ => True

theorem unmarked_of_deployStep {name : JsString} {op : Op} (h : DeployStep name op) :
    Unmarked op := by
  match op with
  | .books .now | .books (.track ..) | .books .tracked | .books (.storeSnapshot _)
  | .books (.emit _) | .books (.sendUpdate ..) | .books .turn | .books (.updateServices ..)
  | .call _ => trivial

theorem unmarked_perform {op : Op} {next : op.Reply → Agent Unit}
    (h : (Program.perform op next).All Unmarked) :
    Unmarked op ∧ ∀ reply, (next reply).All Unmarked := h

-- The programs below decide on texts; their branches are not to be evaluated.
attribute [local irreducible] Program.All

variable (settings : Settings)

/-- A look at the containers tracks the service, stores a snapshot and emits. -/
theorem all_syncContainerStatus {P : Op → Prop} (hlook : ∀ op, Looks op → P op)
    (htrack : ∀ i service, P (.books (.track i service)))
    (hstore : ∀ snapshot, P (.books (.storeSnapshot snapshot)))
    (hemit : ∀ emission, P (.books (.emit emission))) (i : ℤ) (serviceName deployPreset : JsString)
    (fallback : ContainerStatus) :
    (syncContainerStatus settings i serviceName deployPreset fallback).All P := by
  unfold Service.syncContainerStatus trackService emitSnapshot
  apply Program.All.bind (Program.All.ask (htrack _ _))
  intro _
  apply Program.All.bind ((looks_getContainerSnapshot settings _ _).mono hlook)
  intro containers
  apply Program.All.bind
  · exact .bind (.ask (hstore _)) fun _ => .ask (hemit _)
  · intro _
    apply all_ite
    · exact .bind (.ask (hemit _)) fun _ => .pure _
    · exact .pure _

theorem unmarked_sync (i : ℤ) (serviceName deployPreset : JsString) (fallback : ContainerStatus) :
    (syncContainerStatus settings i serviceName deployPreset fallback).All Unmarked := by
  apply all_syncContainerStatus
  · intro op hop
    exact unmarked_of_deployStep (Looks.deployStep hop : DeployStep [] op)
  · exact fun _ _ => trivial
  · exact fun _ => trivial
  · exact fun _ => trivial

theorem unmarked_updateServiceStatus (i : ℤ) (status : ServiceStatus) :
    (updateServiceStatus i status).All Unmarked :=
  .bind (.ask trivial) fun _ => .ask trivial

theorem unmarked_serviceEmit (i : ℤ) (emission : Emission) :
    (serviceEmit i emission).All Unmarked := by
  cases emission with
  | serviceStatus j status =>
      exact .bind (.ask trivial) fun _ => unmarked_updateServiceStatus i status
  | serviceLog j entry => exact .ask trivial
  | containerStatus snapshot => exact .pure ()
  | serviceLogMarkers j markers => exact .pure ()

theorem unmarked_initContainerStates (i : ℤ) (serviceName deployPreset : JsString) :
    (initContainerStates settings i serviceName deployPreset).All Unmarked :=
  .bind (.ask trivial) fun _ => .bind (.ask trivial) fun _ => .ask trivial

theorem unmarked_v1DeployService (data : DeployCommand) :
    (v1DeployService settings data deployEmit).All Unmarked :=
  (deployStep_v1DeployService settings data).mono fun _ => unmarked_of_deployStep

theorem unmarked_betweenSyncs (payload : ServicePayload) (fallback : ContainerStatus)
    {action : Agent Unit} (h : action.All Unmarked) :
    (betweenSyncs settings payload fallback action).All Unmarked := by
  unfold betweenSyncs
  apply Program.All.bind (all_awaited trivial (unmarked_sync settings _ _ _ _))
  intro _
  apply Program.All.bind (all_awaited trivial h)
  intro _
  exact .bind (unmarked_sync settings _ _ _ _) fun _ => .pure _

/-- A guarded lifecycle step that reports a failure and goes on. -/
theorem unmarked_guarded {emit : HubEmit} (hemit : ∀ e, (emit e).All Unmarked) {p : Agent Unit}
    (hp : p.All Unmarked) (i : ℤ) {log : JsString → Agent Unit}
    (hlog : ∀ line, (log line).All Unmarked) :
    (tryCatch p fun e => do
      sendStatus emit i .failed
      log (js "ERROR: " ++ e.text)).All Unmarked := by
  apply Program.All.tryCatch hp
  intro e
  exact .bind (hemit _) fun _ => hlog _

section Lifecycle

variable {emit : HubEmit} (hemit : ∀ e, (emit e).All Unmarked)

include hemit

theorem unmarked_restartService (i : ℤ) (serviceName deployPreset : JsString) :
    (restartService settings i serviceName deployPreset emit).All Unmarked := by
  have hlog := all_sendLog hemit (P := Unmarked) trivial i
    (toDockerName settings.casing serviceName) .lifecycle
  unfold restartService
  dsimp only
  apply unmarked_guarded hemit _ _ hlog
  apply Program.All.bind (hemit _)
  intro _
  apply Program.All.bind (hlog _)
  intro _
  have hdone : ∀ _ : Unit, (do
      sendStatus emit i .running
      sendLog emit i (toDockerName settings.casing serviceName) .lifecycle
        (about (js "Service ") (toDockerName settings.casing serviceName)
          (js " restarted successfully.")) : Agent Unit).All Unmarked :=
    fun _ => .bind (hemit _) fun _ => hlog _
  apply all_ite
  · exact .bind (all_dockerCliRun trivial _ hlog) hdone
  · apply Program.All.bind (Program.All.ask trivial)
    intro reply
    exact .bind (all_await _ reply) hdone

theorem unmarked_stopService (i : ℤ) (serviceName deployPreset : JsString) :
    (stopService settings i serviceName deployPreset emit).All Unmarked := by
  have hlog := all_sendLog hemit (P := Unmarked) trivial i
    (toDockerName settings.casing serviceName) .lifecycle
  unfold stopService
  dsimp only
  apply unmarked_guarded hemit _ _ hlog
  apply Program.All.bind (hlog _)
  intro _
  have hdone : ∀ _ : Unit, (do
      sendStatus emit i .stopped
      sendLog emit i (toDockerName settings.casing serviceName) .lifecycle
        (about (js "Service ") (toDockerName settings.casing serviceName)
          (js " stopped successfully.")) : Agent Unit).All Unmarked :=
    fun _ => .bind (hemit _) fun _ => hlog _
  apply all_ite
  · exact .bind (all_dockerCliRun trivial _ hlog) hdone
  · apply Program.All.bind (Program.All.ask trivial)
    intro reply
    exact .bind (all_await _ reply) hdone

theorem unmarked_containerAction (i : ℤ) (containerName : JsString)
    {action : Agent (Except JsError Unit)} (haction : action.All Unmarked) (doing done : JsString) :
    (containerAction i containerName emit action doing done).All Unmarked := by
  have hlog := all_sendLog hemit (P := Unmarked) trivial i containerName .lifecycle
  unfold containerAction
  dsimp only
  apply Program.All.tryCatch
  · apply Program.All.bind (hlog _)
    intro _
    apply Program.All.bind haction
    intro reply
    apply Program.All.bind (all_await _ reply)
    intro _
    exact hlog _
  · intro e
    exact hlog _

end Lifecycle

/-! ## DELETE -/

theorem deployStep_deleteEmit {name : JsString} (i : ℤ) (emission : Emission) :
    (deleteEmit i emission).All (DeployStep name) := by
  cases emission with
  | serviceStatus j status => exact .ask trivial
  | serviceLog j entry => exact .ask trivial
  | containerStatus snapshot => exact .pure ()
  | serviceLogMarkers j markers => exact .pure ()

theorem unmarked_deleteEmit (i : ℤ) (emission : Emission) :
    (deleteEmit i emission).All Unmarked := by
  have hstep : (deleteEmit i emission).All (DeployStep []) := deployStep_deleteEmit i emission
  exact hstep.mono fun _ => unmarked_of_deployStep

theorem unmarked_removeService (i : ℤ) (si : JsString) (isCompose : Bool)
    (deleteScope : DeleteScope) :
    (removeService settings si isCompose deleteScope
      (sendLog (deleteEmit i) i si .lifecycle)).All Unmarked := by
  have hlog := all_sendLog (unmarked_deleteEmit i) (P := Unmarked) trivial i si .lifecycle
  have hdirectory : (removeBuildDir settings (Node.Path.join [settings.buildRoot, si])
      (sendLog (deleteEmit i) i si .lifecycle)).All Unmarked := by
    have hline : ∀ line, (sendLog (deleteEmit i) i si .lifecycle line).All (DeployStep []) :=
      all_sendLog (deployStep_deleteEmit i) trivial i si .lifecycle
    apply (deployStep_removeBuildDir settings hline _).mono
    intro op
    exact unmarked_of_deployStep
  have hrest : ∀ _ : Unit, (if deleteScope = .service then
      removeBuildDir settings (Node.Path.join [settings.buildRoot, si])
        (sendLog (deleteEmit i) i si .lifecycle) else pure () : Agent Unit).All Unmarked :=
    fun _ => all_ite _ hdirectory (.pure ())
  unfold removeService
  apply all_ite
  · exact .bind (all_dockerCliRun trivial _ hlog) hrest
  · apply Program.All.bind (all_removeServiceContainer hlog trivial trivial trivial)
    intro _
    apply all_ite
    · exact .bind (all_removeServiceImage hlog trivial) hrest
    · exact hrest ()

theorem unmarked_removeRows (i : ℤ) (deleteScope : DeleteScope) :
    (removeRows i deleteScope).All Unmarked := by
  cases deleteScope with
  | service => exact .bind (.ask trivial) fun reply => all_await _ reply
  | containers =>
      exact .bind (.ask trivial) fun _ => .bind (.ask trivial) fun reply => all_await _ reply

theorem unmarked_v1DeleteService (i : ℤ) (serviceName deployPreset : JsString)
    (deleteScope : DeleteScope) :
    (v1DeleteService settings serviceName i deployPreset deleteScope (deleteEmit i)).All
      Unmarked := by
  have hlog := all_sendLog (unmarked_deleteEmit i) (P := Unmarked) trivial i
    (toDockerName settings.casing serviceName) .lifecycle
  unfold v1DeleteService deleteService
  dsimp only
  apply Program.All.bind
  · apply all_awaited trivial
    apply unmarked_guarded (unmarked_deleteEmit i) _ _ hlog
    apply Program.All.bind (hlog _)
    intro _
    apply Program.All.bind (unmarked_removeService settings _ _ _ _)
    intro _
    exact .bind (unmarked_deleteEmit i _) fun _ => hlog _
  · intro _
    apply Program.All.bind (Program.All.ask trivial)
    intro reply
    apply Program.All.bind (all_await _ reply)
    intro _
    exact unmarked_removeRows i deleteScope

theorem unmarked_handleDelete (payload : ServicePayload) (deleteScope : DeleteScope) :
    (handleDelete settings payload deleteScope).All Unmarked := by
  unfold handleDelete
  apply Program.All.bind (all_awaited trivial (unmarked_sync settings _ _ _ _))
  intro _
  apply Program.All.bind (all_awaited trivial (unmarked_v1DeleteService settings _ _ _ _))
  intro _
  exact .bind (.ask trivial) fun _ => .bind (.ask trivial) fun _ => .ask trivial

theorem unmarked_onStatusEvent (event : DockerStatusEvent) :
    (onStatusEvent settings event).All Unmarked := by
  unfold onStatusEvent reportEvent
  apply Program.All.bind (Program.All.ask trivial)
  intro tracked
  split
  · exact .pure ()
  · apply Program.All.bind (Program.All.ask trivial)
    intro _
    exact .bind (unmarked_sync settings _ _ _ _) fun _ => .pure _

/-! ## The stages of a task -/

/-- Where a task stands with its marker: it looks for one, it stores one, or it
is past that. -/
inductive Stage : Agent Unit → Prop
  | looks {i : ℤ} {serviceName : JsString} {event : MarkerEvent} {timestamp : ℤ}
      {next : Except JsError Bool → Agent Unit} {stored : Except JsError Unit → Agent Unit}
      (duplicate : (next (.ok true)).All Unmarked)
      (unread : ∀ e, (next (.error e)).All Unmarked)
      (store : next (.ok false) = .perform
        (.books (.createMarker ⟨i, serviceName, serviceName, event, timestamp⟩)) stored)
      (rest : ∀ reply, (stored reply).All Unmarked) :
      Stage (.perform
        (.books (.findMarker i serviceName event (timestamp - 2000) (timestamp + 2000))) next)
  | stores {marker : Marker} {stored : Except JsError Unit → Agent Unit}
      (named : marker.containerName = marker.serviceName)
      (rest : ∀ reply, (stored reply).All Unmarked) :
      Stage (.perform (.books (.createMarker marker)) stored)
  | past {program : Agent Unit} (rest : program.All Unmarked) : Stage program

/-- A command that makes a marker reads the clock and looks for one like it. -/
theorem stage_settled_marker (i : ℤ) (serviceName : JsString) (event : MarkerEvent)
    {rest : Unit → Agent Unit} (hrest : ∀ u, (rest u).All Unmarked) (books : Books) :
    Stage (System.settled (awaited (createServiceSessionMarker i serviceName event) >>= rest)
      books).1 := by
  have hturn : (awaited (pure ()) >>= rest : Agent Unit).All Unmarked :=
    .bind (all_awaited trivial (.pure ())) hrest
  have hsent (emission : Emission) :
      (awaited (emitToHub emission) >>= rest : Agent Unit).All Unmarked :=
    .bind (all_awaited trivial (.ask trivial)) hrest
  apply Stage.looks
  · exact hturn
  · exact fun e => .throw e
  · rfl
  · intro reply
    cases reply with
    | ok _ => exact hsent _
    | error e => exact .throw e

/-- The marker a task is about to store. -/
def markerOnItsWay : Agent Unit → Option Marker
  | .perform (.books (.createMarker marker)) _ => some marker
  | _ => none

theorem markerOnItsWay_of_unmarked {program : Agent Unit} (h : program.All Unmarked) :
    markerOnItsWay program = none := by
  unfold markerOnItsWay
  split
  · exact (unmarked_perform h).1.elim
  · rfl

/-- A new task has not looked yet. -/
structure NotYetLooked (program : Agent Unit) : Prop where
  stage : Stage program
  onItsWay : markerOnItsWay program = none

theorem notYetLooked_settled {program : Agent Unit} (h : program.All Unmarked) (books : Books) :
    NotYetLooked (System.settled program books).1 := by
  have hleft : (System.settled program books).1.All Unmarked := h.settle _
  exact ⟨.past hleft, markerOnItsWay_of_unmarked hleft⟩

theorem notYetLooked_marker (i : ℤ) (serviceName : JsString) (event : MarkerEvent)
    {rest : Unit → Agent Unit} (hrest : ∀ u, (rest u).All Unmarked) (books : Books) :
    NotYetLooked (System.settled
      (awaited (createServiceSessionMarker i serviceName event) >>= rest) books).1 :=
  ⟨stage_settled_marker i serviceName event hrest books, rfl⟩

theorem notYetLooked_withPayload (payload : ServicePayload) {handle : ServicePayload → Agent Unit}
    (books : Books) (h : ∀ payload, NotYetLooked (System.settled (handle payload) books).1) :
    NotYetLooked (System.settled (withPayload payload handle) books).1 := by
  unfold withPayload
  split
  · exact notYetLooked_settled (.pure ()) books
  · exact h _

theorem notYetLooked_handleContainer (payload : ServicePayload) (containerName : JsString)
    (fallback : ContainerStatus) {action : Agent Unit} (haction : action.All Unmarked)
    (books : Books) : NotYetLooked
      (System.settled (handleContainer settings payload containerName fallback action)
        books).1 := by
  apply notYetLooked_settled
  unfold handleContainer
  exact all_ite _ (.pure ()) (unmarked_betweenSyncs settings payload fallback haction)

theorem notYetLooked_deploy (data : DeployCommand) (event : MarkerEvent) (books : Books) :
    NotYetLooked (System.settled (handleDeploy settings data event) books).1 := by
  unfold handleDeploy
  apply notYetLooked_marker
  intro _
  exact .bind (unmarked_initContainerStates settings _ _ _) fun _ =>
    unmarked_v1DeployService settings data

theorem notYetLooked_command (c : Command) (books : Books) :
    NotYetLooked (System.settled (handleCommand settings c) books).1 := by
  cases c with
  | deploy data => exact notYetLooked_deploy settings data .deploy books
  | redeploy data => exact notYetLooked_deploy settings data .redeploy books
  | start payload =>
      apply notYetLooked_withPayload
      intro payload
      unfold handleStart
      apply notYetLooked_marker
      intro _
      apply unmarked_betweenSyncs
      exact unmarked_restartService settings (unmarked_serviceEmit _) _ _ _
  | stop payload =>
      apply notYetLooked_withPayload
      intro payload
      apply notYetLooked_settled
      apply unmarked_betweenSyncs
      exact unmarked_stopService settings (unmarked_serviceEmit _) _ _ _
  | containerStart payload name =>
      apply notYetLooked_withPayload
      intro payload
      apply notYetLooked_handleContainer
      exact unmarked_containerAction (unmarked_serviceEmit _) _ _ (.ask trivial) _ _
  | containerStop payload name =>
      apply notYetLooked_withPayload
      intro payload
      apply notYetLooked_handleContainer
      exact unmarked_containerAction (unmarked_serviceEmit _) _ _ (.ask trivial) _ _
  | containerRestart payload name =>
      apply notYetLooked_withPayload
      intro payload
      apply notYetLooked_handleContainer
      exact unmarked_containerAction (unmarked_serviceEmit _) _ _ (.ask trivial) _ _
  | delete payload deleteScope =>
      apply notYetLooked_withPayload
      intro payload
      exact notYetLooked_settled (unmarked_handleDelete settings payload deleteScope) books
  | syncContainerStatus payload =>
      apply notYetLooked_withPayload
      intro payload
      apply notYetLooked_settled
      exact .bind (all_awaited trivial (unmarked_sync settings _ _ _ _)) fun _ => .ask trivial

/-! ## Markers that keep their distance -/

/-- Two markers of one service, name and event are more than two seconds apart. -/
def FarApart (a b : Marker) : Prop :=
  a.serviceIndex = b.serviceIndex → a.serviceName = b.serviceName → a.event = b.event →
    2000 < |a.timestamp - b.timestamp|

theorem FarApart.symm {a b : Marker} (h : FarApart a b) : FarApart b a := by
  intro hindex hname hevent
  rw [abs_sub_comm]
  exact h hindex.symm hname.symm hevent.symm

structure Spaced (markers : List Marker) : Prop where
  named : ∀ marker ∈ markers, marker.containerName = marker.serviceName
  apart : markers.Pairwise FarApart

theorem Spaced.sublist {markers fewer : List Marker} (h : Spaced markers)
    (hsub : fewer.Sublist markers) : Spaced fewer :=
  ⟨fun marker hmarker => h.named marker (hsub.subset hmarker), h.apart.sublist hsub⟩

theorem Spaced.perm {markers others : List Marker} (h : Spaced markers)
    (hperm : others.Perm markers) : Spaced others :=
  ⟨fun marker hmarker => h.named marker (hperm.subset hmarker),
    hperm.symm.pairwise h.apart FarApart.symm⟩

theorem Spaced.concat {markers : List Marker} (h : Spaced markers) {marker : Marker}
    (hnamed : marker.containerName = marker.serviceName)
    (hfar : ∀ other ∈ markers, FarApart other marker) : Spaced (markers ++ [marker]) := by
  constructor
  · intro other hother
    rcases List.mem_append.mp hother with hold | hnew
    · exact h.named other hold
    · rw [List.mem_singleton.mp hnew]
      exact hnamed
  · apply List.pairwise_append.mpr
    refine ⟨h.apart, List.pairwise_singleton _ _, ?_⟩
    intro other hother new hnew
    rw [List.mem_singleton.mp hnew]
    exact hfar other hother

/-- The query of a look finds the marker. -/
def AsksFor (i : ℤ) (serviceName : JsString) (event : MarkerEvent) (gte lte : ℤ)
    (marker : Marker) : Prop :=
  marker.serviceIndex = i ∧ marker.containerName = serviceName ∧ marker.event = event ∧
    gte ≤ marker.timestamp ∧ marker.timestamp ≤ lte

theorem farApart_of_not_asksFor {i timestamp : ℤ} {serviceName : JsString} {event : MarkerEvent}
    {other : Marker} (hnamed : other.containerName = other.serviceName)
    (h : ¬ AsksFor i serviceName event (timestamp - 2000) (timestamp + 2000) other) :
    FarApart other ⟨i, serviceName, serviceName, event, timestamp⟩ := by
  intro hindex hname hevent
  rw [lt_abs]
  by_contra hnear
  obtain ⟨hlow, hhigh⟩ := not_or.mp hnear
  dsimp only at hindex hname hevent hlow hhigh
  exact h ⟨hindex, hnamed.trans hname, hevent, by omega, by omega⟩

theorem findMarker_eq_false_iff (i : ℤ) (serviceName : JsString) (event : MarkerEvent)
    (gte lte : ℤ) (books : Books) :
    (Books.perform (.findMarker i serviceName event gte lte) books).1 = .ok false ↔
      ∀ marker ∈ books.markers, ¬ AsksFor i serviceName event gte lte marker := by
  change (.ok (books.markers.any _) : Except JsError Bool) = .ok false ↔ _
  rw [Except.ok.injEq, List.any_eq_false]
  simp [AsksFor, and_assoc]

/-! ## Steps -/

/-- The markers that tasks are about to store. -/
def System.onTheirWay (s : System) : List Marker :=
  s.tasks.filterMap fun task => markerOnItsWay task.program

/-- When a task looks for a marker and finds none, no other task is about to
store one it asks for. -/
def NoneOnItsWay (s : System) : Happening → Prop
  | .resume k _ => ∀ task i serviceName event gte lte next, s.tasks[k]? = some task →
      task.program = .perform (.books (.findMarker i serviceName event gte lte)) next →
      (∀ marker ∈ s.books.markers, ¬ AsksFor i serviceName event gte lte marker) →
        ∀ marker ∈ s.onTheirWay, ¬ AsksFor i serviceName event gte lte marker
  | _ => True

/-- Every task is at a stage, and the markers stored or about to be stored keep
their distance. -/
structure MarkersKept (s : System) : Prop where
  stages : ∀ task ∈ s.tasks, Stage task.program
  spaced : Spaced (s.books.markers ++ s.onTheirWay)

open scoped List in
/-- Replacing one element replaces what it gives. -/
theorem filterMap_set_perm {α β : Type} (f : α → Option β) {a : α} (b : α) {l : List α} {k : ℕ}
    (h : l[k]? = some a) : (l.set k b).filterMap f ++ (f a).toList ~
      l.filterMap f ++ (f b).toList := by
  obtain ⟨hk, rfl⟩ := List.getElem?_eq_some_iff.mp h
  have hsplit : l = l.take k ++ l[k] :: l.drop (k + 1) := by
    rw [List.getElem_cons_drop, List.take_append_drop]
  have hset : l.set k b = l.take k ++ b :: l.drop (k + 1) := List.set_eq_take_append_cons_drop.trans
    (if_pos hk)
  have hone : ∀ x, (l.take k ++ x :: l.drop (k + 1)).filterMap f =
      (l.take k).filterMap f ++ ((f x).toList ++ (l.drop (k + 1)).filterMap f) := by
    intro x
    rw [List.filterMap_append, List.filterMap_cons]
    cases f x <;> rfl
  have hold : l.filterMap f =
      (l.take k).filterMap f ++ ((f l[k]).toList ++ (l.drop (k + 1)).filterMap f) := by
    rw [← hone, ← hsplit]
  rw [hset, hone, hold]
  simp only [List.append_assoc]
  apply List.Perm.append_left
  calc (f b).toList ++ ((l.drop (k + 1)).filterMap f ++ (f l[k]).toList)
    _ ~ ((l.drop (k + 1)).filterMap f ++ (f l[k]).toList) ++ (f b).toList := List.perm_append_comm
    _ ~ ((f l[k]).toList ++ (l.drop (k + 1)).filterMap f) ++ (f b).toList :=
        List.perm_append_comm.append_right _
    _ = (f l[k]).toList ++ ((l.drop (k + 1)).filterMap f ++ (f b).toList) := by
        rw [List.append_assoc]

/-! ## The invariant -/

theorem markers_settle (p : Agent Unit) (books : Books) :
    (p.settle memory books).2.markers = books.markers := by
  induction p generalizing books with
  | pure a => rfl
  | throw e => rfl
  | perform op next ih =>
      match op with
      | .books .now => exact ih _ (Books.perform .now books).2
      | .books (.emit emission) => exact ih () (Books.perform (.emit emission) books).2
      | .books (.track i service) => exact ih () (Books.perform (.track i service) books).2
      | .books .tracked => exact ih books.tracked books
      | .books (.storeSnapshot snapshot) =>
          exact ih () (Books.perform (.storeSnapshot snapshot) books).2
      | .books (.sendUpdate i status lastOnline) =>
          exact ih () (Books.perform (.sendUpdate i status lastOnline) books).2
      | .books .turn | .books (.findMarker ..) | .books (.createMarker _)
      | .books (.deleteMarkers _) | .books (.deleteServices _) | .books (.updateServices ..)
      | .call _ => rfl

theorem MarkersKept.spawn {s : System} (h : MarkersKept s) (origin : Origin)
    {program : Agent Unit} (hnew : NotYetLooked (System.settled program s.books).1) :
    MarkersKept (s.spawn origin program) := by
  constructor
  · intro task htask
    rcases List.mem_append.mp htask with hold | hadded
    · exact h.stages task hold
    · rw [List.mem_singleton.mp hadded]
      exact hnew.stage
  · have hway : (s.spawn origin program).onTheirWay = s.onTheirWay := by
      change (s.tasks ++ [(⟨origin, (System.settled program s.books).1⟩ : Task)]).filterMap
        (fun task : Task => markerOnItsWay task.program) = s.onTheirWay
      simp only [List.filterMap_append, List.filterMap_cons, hnew.onItsWay, List.filterMap_nil,
        List.append_nil]
      rfl
    have hstored : (s.spawn origin program).books.markers = s.books.markers :=
      markers_settle program _
    rw [hway, hstored]
    exact h.spaced

section Resume

variable {s : System} {k : ℕ} {task : Task}

/-- A task goes on to a stage at which the markers still keep their distance. -/
theorem MarkersKept.continueWith (h : MarkersKept s) {program : Agent Unit} {books : Books}
    (hstage : Stage (System.settled program books).1)
    (hspaced : Spaced (books.markers ++
      (s.tasks.set k ⟨task.origin, (System.settled program books).1⟩).filterMap
        fun task => markerOnItsWay task.program)) :
    MarkersKept (s.continueWith k task.origin program books) := by
  constructor
  · intro other hother
    rcases List.mem_or_eq_of_mem_set hother with hold | rfl
    · exact h.stages other hold
    · exact hstage
  · have hstored : (s.continueWith k task.origin program books).books.markers = books.markers :=
      markers_settle program _
    rw [hstored]
    exact hspaced

/-- A task past its marker: it can at most delete markers. -/
theorem MarkersKept.continuePast (h : MarkersKept s) (htask : s.tasks[k]? = some task)
    (hnone : markerOnItsWay task.program = none) {program : Agent Unit} {books : Books}
    (hrest : program.All Unmarked) (hbooks : books.markers.Sublist s.books.markers) :
    MarkersKept (s.continueWith k task.origin program books) := by
  have hnew := notYetLooked_settled hrest books
  apply h.continueWith hnew.stage
  have hperm := filterMap_set_perm (fun task => markerOnItsWay task.program)
    (⟨task.origin, (System.settled program books).1⟩ : Task) htask
  rw [hnone, hnew.onItsWay, Option.toList_none, List.append_nil, List.append_nil] at hperm
  apply (h.spaced.sublist (hbooks.append_right _)).perm
  exact hperm.append_left _

/-- The task stores its marker, which was counted already. -/
theorem MarkersKept.store (h : MarkersKept s) (htask : s.tasks[k]? = some task) {marker : Marker}
    (hmarker : markerOnItsWay task.program = some marker) {program : Agent Unit}
    (hrest : program.All Unmarked) : MarkersKept (s.continueWith k task.origin program
      { s.books with markers := s.books.markers ++ [marker] }) := by
  have hnew := notYetLooked_settled hrest { s.books with markers := s.books.markers ++ [marker] }
  apply h.continueWith hnew.stage
  have hperm := filterMap_set_perm (fun task => markerOnItsWay task.program)
    (⟨task.origin, (System.settled program { s.books with
      markers := s.books.markers ++ [marker] }).1⟩ : Task) htask
  rw [hmarker, hnew.onItsWay, Option.toList_none, Option.toList_some, List.append_nil] at hperm
  apply h.spaced.perm
  rw [List.append_assoc]
  apply List.Perm.append_left
  exact List.perm_append_comm.trans hperm

/-- The marker of the task is not stored after all. -/
theorem MarkersKept.unstored (h : MarkersKept s) (htask : s.tasks[k]? = some task) {marker : Marker}
    (hmarker : markerOnItsWay task.program = some marker) {program : Agent Unit}
    (hrest : program.All Unmarked) :
    MarkersKept (s.continueWith k task.origin program s.books) := by
  have hnew := notYetLooked_settled hrest s.books
  apply h.continueWith hnew.stage
  have hperm := filterMap_set_perm (fun task => markerOnItsWay task.program)
    (⟨task.origin, (System.settled program s.books).1⟩ : Task) htask
  rw [hmarker, hnew.onItsWay, Option.toList_none, Option.toList_some, List.append_nil] at hperm
  exact (h.spaced.perm (hperm.append_left _)).sublist
    ((List.sublist_append_left _ _).append_left _)

/-- The task found no marker like its own, stored or on its way, and is about to
store one. -/
theorem MarkersKept.look (h : MarkersKept s) (htask : s.tasks[k]? = some task)
    (hnone : markerOnItsWay task.program = none) {marker : Marker}
    {stored : Except JsError Unit → Agent Unit} (hnamed : marker.containerName = marker.serviceName)
    (hrest : ∀ reply, (stored reply).All Unmarked)
    (hfar : ∀ other ∈ s.books.markers ++ s.onTheirWay, FarApart other marker) :
    MarkersKept (s.continueWith k task.origin
      (.perform (.books (.createMarker marker)) stored) s.books) := by
  apply h.continueWith
  · exact .stores hnamed hrest
  · have hperm := filterMap_set_perm (fun task => markerOnItsWay task.program)
      (⟨task.origin, .perform (.books (.createMarker marker)) stored⟩ : Task) htask
    rw [hnone, Option.toList_none, List.append_nil] at hperm
    apply (h.spaced.concat hnamed hfar).perm
    rw [List.append_assoc]
    exact hperm.append_left _

theorem MarkersKept.looked (h : MarkersKept s) (htask : s.tasks[k]? = some task) {i : ℤ}
    {serviceName : JsString} {event : MarkerEvent} {timestamp : ℤ}
    {next : Except JsError Bool → Agent Unit} {stored : Except JsError Unit → Agent Unit}
    (hnone : markerOnItsWay task.program = none) (duplicate : (next (.ok true)).All Unmarked)
    (store : next (.ok false) = .perform
      (.books (.createMarker ⟨i, serviceName, serviceName, event, timestamp⟩)) stored)
    (rest : ∀ reply, (stored reply).All Unmarked) (found : Bool)
    (hfound : found = false → ∀ other ∈ s.books.markers ++ s.onTheirWay,
      ¬ AsksFor i serviceName event (timestamp - 2000) (timestamp + 2000) other) :
    MarkersKept (s.continueWith k task.origin (next (.ok found)) s.books) := by
  cases found with
  | true => exact h.continuePast htask hnone duplicate (List.Sublist.refl _)
  | false =>
      rw [store]
      apply h.look htask hnone rfl rest
      intro other hother
      exact farApart_of_not_asksFor (h.spaced.named other hother) (hfound rfl other hother)

end Resume

theorem markers_perform {op : BookOp} (h : Unmarked (.books op)) (books : Books) :
    (Books.perform op books).2.markers.Sublist books.markers := by
  match op with
  | .deleteMarkers i => exact List.filter_sublist
  | .now | .track .. | .tracked | .storeSnapshot _ | .emit _ | .sendUpdate .. | .turn
  | .deleteServices _ | .updateServices .. => exact List.Sublist.refl _

theorem Answered.markers_sublist {old books : Books} {k : ℕ} {e : Happening} {op : Op}
    {reply : op.Reply} (h : Answered old k e op reply books) (hop : Unmarked op) :
    books.markers.Sublist old.markers := by
  cases h with
  | called => exact List.Sublist.refl _
  | performed answer op => exact markers_perform hop old
  | rejected => exact List.Sublist.refl _

/-- A task past its marker, whatever it is answered. -/
theorem MarkersKept.answeredPast {s : System} (h : MarkersKept s) {k : ℕ} {task : Task}
    (htask : s.tasks[k]? = some task) (hpast : task.program.All Unmarked) {op : Op}
    {next : op.Reply → Agent Unit} {reply : op.Reply} {books : Books} {e : Happening}
    (hprogram : task.program = .perform op next) (hreply : Answered s.books k e op reply books) :
    MarkersKept (s.continueWith k task.origin (next reply) books) := by
  have hnone := markerOnItsWay_of_unmarked hpast
  rw [hprogram] at hpast
  obtain ⟨hop, hnext⟩ := unmarked_perform hpast
  exact h.continuePast htask hnone (hnext reply) (hreply.markers_sublist hop)

theorem MarkersKept.resume {s s' : System} (h : MarkersKept s) {k : ℕ}
    {answer : (c : Call) → c.Reply} (hok : NoneOnItsWay s (.resume k answer)) {task : Task}
    (htask : s.tasks[k]? = some task) (hresume : s.resumeTask k task answer = some s') :
    MarkersKept s' := by
  have hquiet := fun i serviceName event gte lte next =>
    hok task i serviceName event gte lte next htask
  have hstage := h.stages task (List.mem_of_getElem? htask)
  obtain ⟨origin, program⟩ := task
  cases hstage with
  | @looks i serviceName event timestamp next stored duplicate unread store rest =>
      obtain rfl := Option.some.inj hresume
      apply h.looked htask rfl duplicate store rest
      intro hfound
      have hstored := (findMarker_eq_false_iff i serviceName event _ _ s.books).mp
        (congrArg Except.ok hfound)
      have hway := hquiet i serviceName event _ _ next rfl hstored
      intro other hother
      rcases List.mem_append.mp hother with hold | hnew
      · exact hstored other hold
      · exact hway other hnew
  | stores named rest =>
      obtain rfl := Option.some.inj hresume
      exact h.store htask rfl (rest _)
  | past rest =>
      obtain ⟨op, next, reply, books, hprogram, hreply, rfl⟩ := System.answered_of_resume hresume
      exact h.answeredPast htask rest hprogram hreply

/-- A rejected look or store leaves no marker. -/
theorem MarkersKept.reject {s s' : System} (h : MarkersKept s) {k : ℕ} {error : JsError}
    {task : Task} (htask : s.tasks[k]? = some task)
    (hreject : s.rejectTask k task error = some s') : MarkersKept s' := by
  have hstage := h.stages task (List.mem_of_getElem? htask)
  obtain ⟨origin, program⟩ := task
  cases hstage with
  | looks duplicate unread store rest =>
      obtain rfl := Option.some.inj hreject
      exact h.continuePast htask rfl (unread error) (List.Sublist.refl _)
  | stores named rest =>
      obtain rfl := Option.some.inj hreject
      exact h.unstored htask rfl (rest _)
  | past rest =>
      obtain ⟨op, next, reply, books, hprogram, hreply, rfl⟩ := System.answered_of_reject hreject
      exact h.answeredPast htask rest hprogram hreply

theorem markersKept_step {s s' : System} {e : Happening} (h : MarkersKept s)
    (hok : NoneOnItsWay s e) (hstep : (serviceSystem settings).step s e = some s') :
    MarkersKept s' := by
  cases e with
  | command c =>
      obtain rfl := Option.some.inj hstep
      exact h.spawn _ (notYetLooked_command settings c _)
  | created container name =>
      change (if s.nameOf container = none then _ else none) = some s' at hstep
      split_ifs at hstep
      obtain rfl := Option.some.inj hstep
      exact ⟨h.stages, h.spaced⟩
  | docker container status timestamp action exitCode =>
      obtain ⟨name, -, rfl⟩ := Option.map_eq_some_iff.mp hstep
      exact h.spawn _ (notYetLooked_settled (unmarked_onStatusEvent settings _) _)
  | resume k answer =>
      obtain ⟨task, htask, hresume⟩ := Option.bind_eq_some_iff.mp hstep
      exact h.resume hok htask hresume
  | reject k error =>
      obtain ⟨task, htask, hreject⟩ := Option.bind_eq_some_iff.mp hstep
      exact h.reject htask hreject
  | updated n done =>
      obtain ⟨update, -, rfl⟩ := Option.map_eq_some_iff.mp hstep
      exact ⟨h.stages, h.spaced⟩

/-- The agent with the markers of earlier sessions in its database. -/
def storedBefore (clock : ℕ → ℤ) (markers : List Marker) : System where
  books := { clock := clock, markers := markers }

/-- In a run in which no look misses a marker on its way, the stored markers keep
their distance. -/
theorem markers_not_duplicated (clock : ℕ → ℤ) {markers : List Marker} (hbefore : Spaced markers)
    {events : List Happening} {s : System}
    (hok : (serviceSystem settings).Along NoneOnItsWay (storedBefore clock markers) events)
    (hrun : (serviceSystem settings).run (storedBefore clock markers) events = some s) :
    Spaced s.books.markers := by
  have hstart : MarkersKept (storedBefore clock markers) := by
    refine ⟨List.forall_mem_nil _, ?_⟩
    change Spaced (markers ++ [])
    rw [List.append_nil]
    exact hbefore
  have hkept := hok.run_invariant (fun s e s' => markersKept_step settings) hstart hrun
  exact hkept.spaced.sublist (List.sublist_append_left _ _)

/-- The START of a service, for trials. -/
def startOfApp : Command := .start ⟨1, js "app", js "COMPOSE"⟩

def markerOfApp : Marker := ⟨1, js "app", js "app", .start, 0⟩

theorem along_startOfApp :
    (serviceSystem hostSettings).Along NoneOnItsWay (storedBefore (fun _ => 0) [])
      [.command startOfApp, .resume 0 willingAnswer, .resume 0 willingAnswer] := by
  refine ⟨trivial, fun s hs => ?_⟩
  obtain rfl := Option.some.inj hs
  refine ⟨?_, fun s hs => ?_⟩
  · intro task i serviceName event gte lte next htask hprogram hnone marker hmarker
    cases hmarker
  · obtain rfl := Option.some.inj hs
    refine ⟨?_, fun s hs => trivial⟩
    intro task i serviceName event gte lte next htask hprogram
    obtain rfl := Option.some.inj htask
    cases hprogram

theorem markers_not_duplicated_once :
    ∃ s, (serviceSystem hostSettings).run (storedBefore (fun _ => 0) [])
        [.command startOfApp, .resume 0 willingAnswer, .resume 0 willingAnswer] = some s ∧
      Spaced s.books.markers :=
  ⟨_, rfl, markers_not_duplicated hostSettings (fun _ => 0)
    ⟨List.forall_mem_nil _, List.Pairwise.nil⟩ along_startOfApp rfl⟩

/-- Two such commands look before either of them stores. -/
theorem markers_not_duplicated_fails :
    ∃ s, (serviceSystem hostSettings).run (storedBefore (fun _ => 0) [])
        [.command startOfApp, .command startOfApp, .resume 0 willingAnswer,
          .resume 1 willingAnswer, .resume 0 willingAnswer, .resume 1 willingAnswer] = some s ∧
      ¬ Spaced s.books.markers := by
  refine ⟨_, rfl, ?_⟩
  intro hspaced
  have hpair : [markerOfApp, markerOfApp].Pairwise FarApart := hspaced.apart
  have hfar := List.rel_of_pairwise_cons hpair List.mem_cons_self rfl rfl rfl
  rw [sub_self, abs_zero] at hfar
  omega

end OpticsAgent.Tunnel
