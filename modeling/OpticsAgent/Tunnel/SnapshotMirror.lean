import Mathlib
import OpticsAgent.Tunnel.CommandScope

/-!
The container snapshots of the agent and those of the Hub. `getContainerSnapshot`
answers from a map of the agent; the Hub goes by the last `container-status` it
was sent. A task changes the one and sends the other before it waits again. Only
SYNC sends its snapshot a second time, after a wait: as long as that snapshot is
then still the one that is kept, both sides have the same snapshot of every
service at every moment.
-/

namespace OpticsAgent.Tunnel

open OpticsAgent.Ecma OpticsAgent.Lib OpticsAgent.Docker OpticsAgent.Docker.Agent
open OpticsAgent.Service

/-! ## The two sides -/

def snapshotOf (i : ℤ) : Emission → Option ContainerSnapshot
  | .containerStatus snapshot => if snapshot.serviceIndex = i then some snapshot else none
  | _ => none

/-- The last snapshot of service `i` that was sent. -/
def lastSnapshot (i : ℤ) (sent : List Emission) : Option ContainerSnapshot :=
  (sent.filterMap (snapshotOf i)).getLast?

/-- `getContainerSnapshot` of the service lifecycle. -/
def System.getContainerSnapshot (s : System) (serviceIndex : ℤ) : Option ContainerSnapshot :=
  s.books.snapshots.get serviceIndex

/-- What the Hub has of service `i`. -/
def System.hubSnapshot (s : System) (i : ℤ) : Option ContainerSnapshot :=
  lastSnapshot i (s.reports.map Report.emission)

/-- The counts of a snapshot are those of its containers. -/
def Counted (snapshot : ContainerSnapshot) : Prop :=
  snapshot = snapshotFromContainers snapshot.serviceIndex snapshot.containers

theorem lastSnapshot_append (i : ℤ) (xs ys : List Emission) :
    lastSnapshot i (xs ++ ys) = (lastSnapshot i ys).or (lastSnapshot i xs) := by
  rw [lastSnapshot, List.filterMap_append, List.getLast?_append]
  rfl

theorem lastSnapshot_append_of_none {i : ℤ} {xs : List Emission} {e : Emission}
    (h : snapshotOf i e = none) : lastSnapshot i (xs ++ [e]) = lastSnapshot i xs := by
  rw [lastSnapshot_append, lastSnapshot, List.filterMap_cons_none h]
  rfl

theorem lastSnapshot_append_snapshot (i : ℤ) (xs : List Emission) (snapshot : ContainerSnapshot) :
    lastSnapshot i (xs ++ [.containerStatus snapshot]) =
      if snapshot.serviceIndex = i then some snapshot else lastSnapshot i xs := by
  split_ifs with hi
  · have hof : snapshotOf i (.containerStatus snapshot) = some snapshot := if_pos hi
    rw [lastSnapshot_append, lastSnapshot, List.filterMap_cons_some hof]
    rfl
  · exact lastSnapshot_append_of_none (if_neg hi)

/-! ## A turn of a task -/

/-- Since the task last waited: no snapshot, one that is kept and not sent yet,
or one that is kept and sent. Or it goes on right behind the look that sent one. -/
inductive Turn where
  | quiet
  | kept (snapshot : ContainerSnapshot)
  | sent (snapshot : ContainerSnapshot)
  | again (snapshot : ContainerSnapshot)

namespace Turn

/-- Nothing is kept that is not sent. -/
def Even (q : Turn) : Prop := ∀ snapshot, q ≠ .kept snapshot

/-- The snapshot that was sent and may be sent again. -/
def held : Turn → Option ContainerSnapshot
  | .sent snapshot | .again snapshot => some snapshot
  | .quiet | .kept _ => none

/-- After something else. -/
def goOn : Turn → Turn
  | .again _ => .quiet
  | q => q

/-- After the wait for a look to settle. -/
def settle : Turn → Turn
  | .sent snapshot => .again snapshot
  | _ => .quiet

end Turn

/-- Keep, then send, and only then wait. -/
def mirroring : Protocol Op Op.Reply Turn where
  admits q
    | .books (.storeSnapshot snapshot) => q.Even ∧ Counted snapshot
    | .books (.emit (.containerStatus snapshot)) => q = .kept snapshot ∨ q.held = some snapshot
    | .books (.emit _) | .books .now | .books (.track ..) | .books .tracked
    | .books (.sendUpdate ..) => True
    | .books _ | .call _ => q.Even
  next q
    | .books (.storeSnapshot snapshot), _ => .kept snapshot
    | .books (.emit (.containerStatus snapshot)), _ => .sent snapshot
    | .books (.emit _), _ | .books .now, _ | .books (.track ..), _ | .books .tracked, _
    | .books (.sendUpdate ..), _ => q.goOn
    | .books .turn, _ => q.settle
    | .books _, _ | .call _, _ => .quiet

/-- Whatever the turn, it ends with nothing left to send. -/
def Mirrors {α : Type} (p : Agent α) : Prop :=
  ∀ q : Turn, q.Even → p.Obeys mirroring q fun _ q' => q'.Even

/-- Operations that leave the snapshots alone. -/
def Plain : Op → Prop
  | .books (.storeSnapshot _) | .books (.emit (.containerStatus _)) => False
  | _ => True

theorem even_quiet : Turn.quiet.Even := nofun

theorem even_sent (snapshot : ContainerSnapshot) : (Turn.sent snapshot).Even := nofun

theorem Turn.Even.goOn {q : Turn} (hq : q.Even) : q.goOn.Even := by
  cases q with
  | kept snapshot => exact (hq snapshot rfl).elim
  | _ => exact nofun

theorem even_settle (q : Turn) : q.settle.Even := by
  cases q <;> exact nofun

section Rules

variable {α β : Type} {p : Agent α}

theorem plain_step {q : Turn} (hq : q.Even) {op : Op} (h : Plain op) :
    mirroring.admits q op ∧ ∀ reply, (mirroring.next q op reply).Even := by
  match op with
  | .books (.storeSnapshot _) => exact h.elim
  | .books (.emit (.containerStatus _)) => exact h.elim
  | .books (.emit (.serviceLog ..)) | .books (.emit (.serviceStatus ..))
  | .books (.emit (.serviceLogMarkers ..)) | .books .now | .books (.track ..)
  | .books .tracked | .books (.sendUpdate ..) => exact ⟨trivial, fun _ => hq.goOn⟩
  | .books .turn => exact ⟨hq, fun _ => even_settle q⟩
  | .books (.findMarker ..) | .books (.createMarker _) | .books (.deleteMarkers _)
  | .books (.deleteServices _) | .books (.updateServices ..) | .call _ =>
      exact ⟨hq, fun _ => even_quiet⟩

theorem mirrors_of_plain (h : p.All Plain) : Mirrors p := by
  intro q hq
  induction p generalizing q with
  | pure a => exact hq
  | throw e => exact hq
  | perform op next ih =>
      obtain ⟨hadmits, hnext⟩ := plain_step hq h.1
      exact ⟨hadmits, fun reply => ih reply (h.2 reply) _ (hnext reply)⟩

theorem Mirrors.bind {f : α → Agent β} (hp : Mirrors p) (hf : ∀ a, Mirrors (f a)) :
    Mirrors (p >>= f) :=
  fun q hq => (hp q hq).bind (fun a q' hq' => hf a q' hq') fun _ _ hq' => hq'

theorem Mirrors.tryCatch {handler : JsError → Agent α} (hp : Mirrors p)
    (hhandler : ∀ e, Mirrors (handler e)) : Mirrors (MonadExcept.tryCatch p handler) :=
  fun q hq => (hp q hq).tryCatch (fun _ _ hq' => hq') fun e q' hq' => hhandler e q' hq'

theorem Mirrors.awaited (hp : Mirrors p) : Mirrors (awaited p) :=
  hp.bind fun a => mirrors_of_plain (.bind (.ask trivial) fun _ => .pure a)

theorem Mirrors.pure (a : α) : Mirrors (Pure.pure a : Agent α) := fun _ hq => hq

end Rules

/-! ## Every handler mirrors -/

section Handlers

-- The programs below decide on texts; their branches are not to be evaluated.
attribute [local irreducible] Program.All Program.Obeys

variable (settings : Settings) {i : ℤ} {name : JsString}

theorem counted_snapshotFromContainers (i : ℤ) (containers : List ContainerState) :
    Counted (snapshotFromContainers i containers) := rfl

/-- A snapshot that is kept and sent, and what comes behind it. -/
theorem obeys_snapshotThen {α : Type} {snapshot : ContainerSnapshot} (hcounted : Counted snapshot)
    {f : Unit → Agent α} {q : Turn} {post : Except JsError α → Turn → Prop} (hq : q.Even)
    (hf : (f ()).Obeys mirroring (.sent snapshot) post) :
    (emitSnapshot snapshot >>= f).Obeys mirroring q post := by
  unfold emitSnapshot
  rw [Program.bind_bind]
  exact .askThen ⟨hq, hcounted⟩ fun _ => .askThen (.inl rfl) fun _ => hf

theorem plain_trackService (serviceName deployPreset : JsString) :
    (trackService settings i serviceName deployPreset).All Plain := by
  unfold trackService track
  exact .ask trivial

/-- A look at the containers ends with its snapshot sent. -/
def Looked : Except JsError ContainerSnapshot → Turn → Prop
  | .ok snapshot, q => q = .sent snapshot
  | .error _, q => q.Even

theorem obeys_sync {serviceName deployPreset : JsString} {fallback : ContainerStatus} {q : Turn}
    (hq : q.Even) : (syncContainerStatus settings i serviceName deployPreset fallback).Obeys
      mirroring q Looked := by
  unfold Service.syncContainerStatus
  refine (mirrors_of_plain (plain_trackService settings _ _) q hq).bind (fun _ q₁ hq₁ => ?_)
    fun _ _ h => h
  have hlook : (Docker.getContainerSnapshot settings (toDockerName settings.casing serviceName)
      deployPreset).All Plain := all_getContainerSnapshot settings (fun _ _ => trivial) _
  refine (mirrors_of_plain hlook q₁ hq₁).bind (fun containers q₂ hq₂ => ?_) fun _ _ h => h
  refine obeys_snapshotThen (counted_snapshotFromContainers _ _) hq₂ ?_
  split_ifs
  · exact .askThen trivial fun _ => .pure rfl
  · exact .pure rfl

theorem mirrors_sync {serviceName deployPreset : JsString} {fallback : ContainerStatus} :
    Mirrors (syncContainerStatus settings i serviceName deployPreset fallback) := by
  intro q hq
  refine (obeys_sync settings hq).mono fun r q' hlooked => ?_
  cases r with
  | ok snapshot =>
      obtain rfl : q' = .sent snapshot := hlooked
      exact even_sent snapshot
  | error e => exact hlooked

theorem plain_updateServiceStatus (status : ServiceStatus) :
    (updateServiceStatus i status).All Plain := by
  unfold updateServiceStatus now
  exact .bind (.ask trivial) fun _ => .ask trivial

theorem plain_removeRows (deleteScope : DeleteScope) : (removeRows i deleteScope).All Plain := by
  unfold removeRows now
  cases deleteScope with
  | service => exact .bind (.ask trivial) fun reply => all_await _ reply
  | containers =>
      exact .bind (.ask trivial) fun _ => .bind (.ask trivial) fun reply => all_await _ reply

theorem plain_serviceEmit (e : Emission) : (serviceEmit i e).All Plain := by
  cases e with
  | serviceStatus j status => exact .bind (.ask trivial) fun _ => plain_updateServiceStatus _
  | serviceLog => exact .ask trivial
  | containerStatus => exact .pure ()
  | serviceLogMarkers => exact .pure ()

theorem plain_deleteEmit (e : Emission) : (deleteEmit i e).All Plain := by
  cases e with
  | serviceStatus => exact .ask trivial
  | serviceLog => exact .ask trivial
  | containerStatus => exact .pure ()
  | serviceLogMarkers => exact .pure ()

theorem plain_createServiceSessionMarker (serviceName : JsString) (event : MarkerEvent) :
    (createServiceSessionMarker i serviceName event).All Plain := by
  unfold createServiceSessionMarker now
  apply Program.All.bind (Program.All.ask trivial)
  intro timestamp
  apply Program.All.bind (Program.All.ask trivial)
  intro reply
  apply Program.All.bind (all_await _ reply)
  intro duplicate
  apply all_ite
  · exact .pure ()
  · apply Program.All.bind (Program.All.ask trivial)
    intro reply
    exact .bind (all_await _ reply) fun _ => .ask trivial

/-- What is kept of the snapshots when something is due in a deployment. -/
def Facing : Due → Turn → Prop
  | .showing _ (.tell snapshot), q => q = .kept snapshot
  | _, q => q.Even

theorem facing_of_busy {due : Due} {q : Turn} (hdue : Busy due) (hq : q.Even) : Facing due q := by
  cases due with
  | showing occasion part =>
      cases part with
      | track | store => exact hq
      | tell snapshot => exact hdue.elim
  | _ => exact hq

theorem Facing.even {due : Due} {q : Turn} (h : Facing due q) (hdue : Busy due) : q.Even := by
  cases due with
  | showing occasion part =>
      cases part with
      | track | store => exact h
      | tell snapshot => exact hdue.elim
  | marker | newMarker => exact hdue.elim
  | _ => exact h

theorem Facing.goOn {due : Due} {q : Turn} (h : Facing due q) : Facing due q.goOn := by
  cases due with
  | showing occasion part =>
      cases part with
      | track | store => exact Turn.Even.goOn h
      | tell snapshot =>
          obtain rfl : q = .kept snapshot := h
          rfl
  | _ => exact Turn.Even.goOn h

/-- A deployment keeps a snapshot only to tell it next. -/
theorem mirroring_simulates {data : DeployCommand} :
    (pipeline settings data).Simulates mirroring Facing := by
  intro due q op hq hadmits
  match op with
  | .books .now => exact ⟨trivial, fun _ => hq.goOn⟩
  | .books (.sendUpdate ..) => exact ⟨trivial, fun _ => hq.goOn⟩
  | .books .turn =>
      have hbusy := busy_of_yields hadmits
      exact ⟨hq.even hbusy, fun _ => facing_of_busy hbusy (even_settle q)⟩
  | .books (.track ..) =>
      obtain ⟨-, -, occasion, rfl⟩ := hadmits
      exact ⟨trivial, fun _ => Turn.Even.goOn hq⟩
  | .books (.storeSnapshot snapshot) =>
      obtain ⟨⟨containers, rfl⟩, occasion, rfl⟩ := hadmits
      exact ⟨⟨hq, rfl⟩, fun _ => rfl⟩
  | .books (.emit (.serviceLog ..)) => exact ⟨trivial, fun _ => hq.goOn⟩
  | .books (.emit (.serviceStatus j status)) =>
      obtain ⟨due', hreport⟩ := Option.isSome_iff_exists.mp hadmits.2
      refine ⟨trivial, fun _ => ?_⟩
      change Facing ((due.report status).getD due) q.goOn
      rw [hreport]
      exact facing_of_busy (busy_report hreport) (hq.even (busy_of_report hreport)).goOn
  | .books (.emit (.containerStatus snapshot)) =>
      obtain ⟨-, occasion, rfl⟩ := hadmits
      refine ⟨.inl hq, fun _ => ?_⟩
      cases occasion <;> exact even_sent snapshot
  | .books (.emit (.serviceLogMarkers ..)) =>
      obtain ⟨-, rfl⟩ := hadmits
      exact ⟨trivial, fun _ => Turn.Even.goOn hq⟩
  | .books (.findMarker ..) =>
      obtain ⟨-, -, rfl⟩ := hadmits
      refine ⟨hq, fun (found : Except JsError Bool) => ?_⟩
      rcases found with e | (- | -) <;> exact even_quiet
  | .books (.createMarker marker) =>
      obtain ⟨-, rfl⟩ := hadmits
      refine ⟨hq, fun (stored : Except JsError Unit) => ?_⟩
      cases stored <;> exact even_quiet
  | .call c =>
      refine ⟨hq.even (busy_of_calls hadmits), fun reply => ?_⟩
      exact facing_of_busy (busy_after hadmits reply) even_quiet

theorem mirrors_handleDeploy (data : DeployCommand) (event : MarkerEvent) :
    Mirrors (handleDeploy settings data event) := by
  intro q hq
  have hstart : Facing .marker q := hq
  refine ((obeys_handleDeploy settings data event).simulate (mirroring_simulates settings)
    hstart).mono ?_
  rintro r q' ⟨due, hfacing, rfl | rfl | rfl | rfl | rfl⟩ <;> exact hfacing

theorem mirrors_betweenSyncs {payload : ServicePayload} {fallback : ContainerStatus}
    {action : Agent Unit} (haction : action.All Plain) :
    Mirrors (betweenSyncs settings payload fallback action) := by
  unfold betweenSyncs
  exact .bind (mirrors_sync settings).awaited fun _ =>
    .bind (mirrors_of_plain haction).awaited fun _ => (mirrors_sync settings).bind fun _ => .pure ()

theorem mirrors_handleContainer {payload : ServicePayload} {containerName : JsString}
    {fallback : ContainerStatus} {action : Agent Unit} (haction : action.All Plain) :
    Mirrors (handleContainer settings payload containerName fallback action) := by
  unfold handleContainer
  split_ifs
  · exact .pure ()
  · exact mirrors_betweenSyncs settings haction

theorem mirrors_handleDelete (payload : ServicePayload) (deleteScope : DeleteScope) :
    Mirrors (handleDelete settings payload deleteScope) := by
  have hdelete : (deleteService settings payload.serviceIndex payload.serviceName
      payload.deployPreset deleteScope (deleteEmit payload.serviceIndex)).All Plain :=
    all_deleteService (fun e _ => plain_deleteEmit e) trivial settings _ _ _ fun _ _ => trivial
  unfold handleDelete v1DeleteService clearContainerStates storeSnapshot
  refine .bind (mirrors_sync settings).awaited fun _ => ?_
  refine .bind (mirrors_of_plain ?_).awaited fun _ q hq => ?_
  · refine .bind (all_awaited trivial hdelete) fun _ => .bind (.ask trivial) fun reply => ?_
    exact .bind (all_await _ reply) fun _ => plain_removeRows deleteScope
  · refine .askThen ⟨hq, rfl⟩ fun _ => .askThen (.inl rfl) fun _ => ?_
    exact .ask trivial fun _ => even_sent _

/-- SYNC sends its snapshot once more when its look has settled. -/
theorem mirrors_handleSync (payload : ServicePayload) : Mirrors (handleSync settings payload) := by
  intro q hq
  unfold handleSync awaited
  rw [Program.bind_bind]
  refine (obeys_sync settings hq).bind ?_ fun _ _ h => h
  rintro snapshot _ rfl
  rw [Program.bind_bind]
  refine .askThen (even_sent snapshot) fun _ => ?_
  exact .ask (.inr rfl) fun _ => even_sent snapshot

theorem mirrors_withPayload {payload : ServicePayload} {handle : ServicePayload → Agent Unit}
    (h : Mirrors (handle payload)) : Mirrors (withPayload payload handle) := by
  unfold withPayload getServiceCommandPayload
  split_ifs
  · exact .pure ()
  · exact h

theorem mirrors_handleCommand (command : Command) : Mirrors (handleCommand settings command) := by
  have haction (i : ℤ) (containerName : JsString) {action : Agent (Except JsError Unit)}
      (h : action.All Plain) (doing done : JsString) :
      (containerAction i containerName (serviceEmit i) action doing done).All Plain :=
    all_containerAction (fun e _ => plain_serviceEmit e) trivial _ h doing done
  cases command with
  | deploy data => exact mirrors_handleDeploy settings data .deploy
  | redeploy data => exact mirrors_handleDeploy settings data .redeploy
  | start payload =>
      refine mirrors_withPayload (.bind
        (mirrors_of_plain (plain_createServiceSessionMarker _ _)).awaited
        fun _ => mirrors_betweenSyncs settings ?_)
      exact all_restartService (fun e _ => plain_serviceEmit e) trivial settings _ _
        fun _ _ => trivial
  | stop payload =>
      refine mirrors_withPayload (mirrors_betweenSyncs settings ?_)
      exact all_stopService (fun e _ => plain_serviceEmit e) trivial settings _ _ fun _ _ => trivial
  | containerStart payload containerName =>
      exact mirrors_withPayload (mirrors_handleContainer settings
        (haction _ _ (.ask trivial) _ _))
  | containerStop payload containerName =>
      exact mirrors_withPayload (mirrors_handleContainer settings
        (haction _ _ (.ask trivial) _ _))
  | containerRestart payload containerName =>
      exact mirrors_withPayload (mirrors_handleContainer settings
        (haction _ _ (.ask trivial) _ _))
  | delete payload deleteScope =>
      exact mirrors_withPayload (mirrors_handleDelete settings payload deleteScope)
  | syncContainerStatus payload =>
      exact mirrors_withPayload (mirrors_handleSync settings payload)

theorem mirrors_onStatusEvent (event : DockerStatusEvent) :
    Mirrors (onStatusEvent settings event) := by
  unfold onStatusEvent tracked
  refine .bind (mirrors_of_plain (.ask trivial)) fun services => ?_
  split
  · exact .pure ()
  · unfold reportEvent emitContainerLifecycleLog emitToHub
    refine .bind (mirrors_of_plain (.ask trivial)) fun _ => ?_
    exact (mirrors_sync settings).bind fun _ => .pure ()

end Handlers

/-! ## The two sides in a turn -/

/-- A kept snapshot is ahead of what was sent. -/
def Turn.ahead (q : Turn) (i : ℤ) (told : Option ContainerSnapshot) : Option ContainerSnapshot :=
  match q with
  | .kept snapshot => if snapshot.serviceIndex = i then some snapshot else told
  | .quiet | .sent _ | .again _ => told

/-- The map of the agent against what was sent before and since. -/
structure Coupled (before : ℤ → Option ContainerSnapshot) (q : Turn) (books : Books) : Prop where
  agree : ∀ i, books.snapshots.get i = q.ahead i ((lastSnapshot i books.emitted).or (before i))
  held : ∀ snapshot, q.held = some snapshot →
    books.snapshots.get snapshot.serviceIndex = some snapshot
  counted : ∀ i snapshot, books.snapshots.get i = some snapshot →
    snapshot.serviceIndex = i ∧ Counted snapshot

variable {before : ℤ → Option ContainerSnapshot}

theorem Turn.Even.ahead {q : Turn} (hq : q.Even) (i : ℤ) (told : Option ContainerSnapshot) :
    q.ahead i told = told := by
  cases q with
  | kept snapshot => exact (hq snapshot rfl).elim
  | _ => rfl

theorem ahead_goOn (q : Turn) (i : ℤ) (told : Option ContainerSnapshot) :
    q.goOn.ahead i told = q.ahead i told := by
  cases q <;> rfl

theorem held_of_goOn {q : Turn} {snapshot : ContainerSnapshot} (h : q.goOn.held = some snapshot) :
    q.held = some snapshot := by
  cases q with
  | again other => cases h
  | _ => exact h

/-- What changes neither side. -/
theorem Coupled.goOn {q : Turn} {books books' : Books} (h : Coupled before q books)
    (hsnapshots : books'.snapshots = books.snapshots)
    (htold : ∀ i, lastSnapshot i books'.emitted = lastSnapshot i books.emitted) :
    Coupled before q.goOn books' where
  agree i := by
    rw [hsnapshots, htold, ahead_goOn]
    exact h.agree i
  held snapshot hheld := by
    rw [hsnapshots]
    exact h.held snapshot (held_of_goOn hheld)
  counted := by
    rw [hsnapshots]
    exact h.counted

theorem Coupled.store {q : Turn} {books : Books} {snapshot : ContainerSnapshot}
    (h : Coupled before q books) (hq : q.Even) (hcounted : Counted snapshot) :
    Coupled before (.kept snapshot)
      { books with snapshots := books.snapshots.set snapshot.serviceIndex snapshot } where
  agree i := by
    have hold := h.agree i
    rw [hq.ahead] at hold
    change (books.snapshots.set snapshot.serviceIndex snapshot).get i = _
    rw [InsertionMap.get_set, Turn.ahead, hold]
  held _ h := nomatch h
  counted i held hheld := by
    change (books.snapshots.set snapshot.serviceIndex snapshot).get i = _ at hheld
    rw [InsertionMap.get_set] at hheld
    split_ifs at hheld with hi
    · obtain rfl := Option.some.inj hheld
      exact ⟨hi, hcounted⟩
    · exact h.counted i held hheld

theorem Coupled.send {q : Turn} {books : Books} {snapshot : ContainerSnapshot}
    (h : Coupled before q books) (hq : q = .kept snapshot ∨ q.held = some snapshot) :
    Coupled before (.sent snapshot)
      { books with emitted := books.emitted ++ [.containerStatus snapshot] } := by
  have hget : ∀ i, books.snapshots.get i = if snapshot.serviceIndex = i then some snapshot
      else (lastSnapshot i books.emitted).or (before i) := by
    intro i
    rcases hq with rfl | hheld
    · exact h.agree i
    · have heven : q.Even := fun other hother => by
        rw [hother] at hheld
        cases hheld
      split_ifs with hi
      · rw [← hi]
        exact h.held snapshot hheld
      · exact (h.agree i).trans (heven.ahead i _)
  refine ⟨fun i => ?_, fun other hother => ?_, h.counted⟩
  · change books.snapshots.get i = (lastSnapshot i (books.emitted ++ _)).or (before i)
    rw [lastSnapshot_append_snapshot, hget]
    split_ifs <;> rfl
  · obtain rfl := Option.some.inj hother
    exact (hget _).trans (if_pos rfl)

theorem coupled_step (q : Turn) (op : Op) (act : Books → op.Reply × Books) (books : Books)
    (hact : memory op = some act) (hadmits : mirroring.admits q op)
    (h : Coupled before q books) :
    Coupled before (mirroring.next q op (act books).1) (act books).2 := by
  match op with
  | .books (.storeSnapshot snapshot) =>
      obtain rfl := Option.some.inj hact
      exact h.store hadmits.1 hadmits.2
  | .books (.emit (.containerStatus snapshot)) =>
      obtain rfl := Option.some.inj hact
      exact h.send hadmits
  | .books (.emit (.serviceLog ..)) | .books (.emit (.serviceStatus ..))
  | .books (.emit (.serviceLogMarkers ..)) =>
      obtain rfl := Option.some.inj hact
      exact h.goOn rfl fun _ => lastSnapshot_append_of_none rfl
  | .books .now | .books (.track ..) | .books .tracked | .books (.sendUpdate ..) =>
      obtain rfl := Option.some.inj hact
      exact h.goOn rfl fun _ => rfl
  | .books .turn | .books (.findMarker ..) | .books (.createMarker _) | .books (.deleteMarkers _)
  | .books (.deleteServices _) | .books (.updateServices ..) | .call _ => cases hact

/-! ## Behind a wait -/

theorem even_of_admits {op : Op} (hwaits : memory op = none) {q : Turn}
    (h : mirroring.admits q op) : q.Even := by
  match op, hwaits with
  | .books .turn, _ | .books (.findMarker ..), _ | .books (.createMarker _), _
  | .books (.deleteMarkers _), _ | .books (.deleteServices _), _ | .books (.updateServices ..), _
  | .call _, _ => exact h

/-- A task that ends or waits has sent what it kept. -/
theorem even_of_waits {program : Agent Unit} {q : Turn} (hwaits : System.Waits program)
    (h : program.Obeys mirroring q fun _ q' => q'.Even) : q.Even := by
  cases program with
  | pure a => exact h
  | throw e => exact h
  | perform op next =>
      exact even_of_admits hwaits h.1

/-- The snapshot a program sends at once. -/
def sentAtOnce : Agent Unit → Option ContainerSnapshot
  | .perform (.books (.emit (.containerStatus snapshot))) _ => some snapshot
  | _ => none

/-- Behind a look a task sends its snapshot again at once, or not at all. -/
theorem sentAtOnce_or_quiet {snapshot : ContainerSnapshot} {p : Agent Unit}
    (h : p.Obeys mirroring (.again snapshot) fun _ q => q.Even) :
    sentAtOnce p = some snapshot ∨ p.Obeys mirroring .quiet fun _ q => q.Even := by
  cases p with
  | pure a => exact .inr even_quiet
  | throw e => exact .inr even_quiet
  | perform op next =>
      obtain ⟨hadmits, hnext⟩ := h
      match op with
      | .books (.emit (.containerStatus other)) =>
          rcases hadmits with hkept | hheld
          · cases hkept
          · exact .inl hheld.symm
      | .books (.storeSnapshot other) => exact .inr ⟨⟨even_quiet, hadmits.2⟩, hnext⟩
      | .books (.emit (.serviceLog ..)) | .books (.emit (.serviceStatus ..))
      | .books (.emit (.serviceLogMarkers ..)) | .books .now | .books (.track ..)
      | .books .tracked | .books (.sendUpdate ..) => exact .inr ⟨trivial, hnext⟩
      | .books .turn | .books (.findMarker ..) | .books (.createMarker _)
      | .books (.deleteMarkers _) | .books (.deleteServices _) | .books (.updateServices ..)
      | .call _ => exact .inr ⟨even_quiet, hnext⟩

theorem coupled_settled {program : Agent Unit} {books : Books} {q : Turn} (hq : q.Even)
    (h : program.Obeys mirroring q fun _ q' => q'.Even)
    (hheld : ∀ snapshot, q.held = some snapshot →
      books.snapshots.get snapshot.serviceIndex = some snapshot)
    (hcounted : ∀ i snapshot, books.snapshots.get i = some snapshot →
      snapshot.serviceIndex = i ∧ Counted snapshot) :
    ∃ q' : Turn, q'.Even ∧
      (System.settled program books).1.Obeys mirroring q' (fun _ q'' => q''.Even) ∧
      Coupled books.snapshots.get q' (System.settled program books).2 := by
  have hstart : Coupled books.snapshots.get q { books with emitted := [] } :=
    ⟨fun i => (hq.ahead i _).symm, hheld, hcounted⟩
  have hleft : (System.settled program books).1.Obeys mirroring
      (mirroring.reach q (System.settling program books)) fun _ q' => q'.Even :=
    (h.settle _).2
  exact ⟨_, even_of_waits (System.waits_settled program books) hleft, hleft,
    h.settle_coupled coupled_step hstart⟩

/-! ## Every run -/

namespace System

/-- The snapshot that task `k` sends again when it goes on. -/
def resent (s : System) (k : ℕ) : Option ContainerSnapshot :=
  match s.tasks[k]? with
  | some ⟨_, .perform (.books .turn) next⟩ => sentAtOnce (next ())
  | _ => none

/-- The Hub and the agent have the same snapshots, and every task will keep to
that. -/
structure Mirrored (s : System) : Prop where
  agree : ∀ i, s.getContainerSnapshot i = s.hubSnapshot i
  counted : ∀ i snapshot, s.getContainerSnapshot i = some snapshot →
    snapshot.serviceIndex = i ∧ Counted snapshot
  tasks : ∀ task ∈ s.tasks, Waits task.program ∧
    ∃ q : Turn, task.program.Obeys mirroring q fun _ q' => q'.Even

end System

/-- What a task sends again is the snapshot that is kept of that service. -/
def StillStored (s : System) : Happening → Prop
  | .resume k _ => ∀ snapshot ∈ s.resent k,
      s.getContainerSnapshot snapshot.serviceIndex = some snapshot
  | _ => True

instance (s : System) : (e : Happening) → Decidable (StillStored s e)
  | .resume k _ => inferInstanceAs (Decidable (∀ snapshot ∈ s.resent k, _ = _))
  | .command _ | .created .. | .docker .. | .reject .. | .updated .. => isTrue trivial

namespace System

theorem hubSnapshot_append {s s' : System} {k : ℕ} {origin : Origin} {books : Books}
    (h : s'.reports = s.reports ++ reported k origin books) (i : ℤ) :
    s'.hubSnapshot i = (lastSnapshot i books.emitted).or (s.hubSnapshot i) := by
  have hreported : (reported k origin books).map Report.emission = books.emitted := by
    unfold reported
    rw [List.map_map]
    exact List.map_id _
  rw [hubSnapshot, h, List.map_append, hreported, lastSnapshot_append]
  rfl

/-- After a turn of a task the two sides agree again. -/
theorem Mirrored.turn {s s' : System} {k : ℕ} {origin : Origin} {program : Agent Unit}
    {books : Books} {q : Turn} (h : s.Mirrored) (hsnapshots : books.snapshots = s.books.snapshots)
    (hq : q.Even) (hprogram : program.Obeys mirroring q fun _ q' => q'.Even)
    (hheld : ∀ snapshot, q.held = some snapshot →
      s.getContainerSnapshot snapshot.serviceIndex = some snapshot)
    (htasks : ∀ task ∈ s'.tasks, task ∈ s.tasks ∨ task.program = (settled program books).1)
    (hreports : s'.reports = s.reports ++ reported k origin (settled program books).2)
    (hbooks : s'.books = (settled program books).2) : s'.Mirrored := by
  have hcounted : ∀ i snapshot, books.snapshots.get i = some snapshot →
      snapshot.serviceIndex = i ∧ Counted snapshot := by
    rw [hsnapshots]
    exact h.counted
  have hstored : ∀ snapshot, q.held = some snapshot →
      books.snapshots.get snapshot.serviceIndex = some snapshot := by
    rw [hsnapshots]
    exact hheld
  obtain ⟨q', heven, hleft, hcoupled⟩ := coupled_settled hq hprogram hstored hcounted
  refine ⟨fun i => ?_, fun i snapshot hheld => ?_, fun task htask => ?_⟩
  · have hagree := hcoupled.agree i
    rw [heven.ahead, hsnapshots] at hagree
    have hold : s.books.snapshots.get i = s.hubSnapshot i := h.agree i
    rw [getContainerSnapshot, hbooks, hagree, hold, hubSnapshot_append hreports]
  · rw [getContainerSnapshot, hbooks] at hheld
    exact hcoupled.counted i snapshot hheld
  · rcases htasks task htask with hold | hnew
    · exact h.tasks task hold
    · rw [hnew]
      exact ⟨waits_settled _ _, q', hleft⟩

variable {settings : Settings}

theorem mirrors_of_starts {origin : Origin} {program : Agent Unit}
    (h : Starts settings program origin) : Mirrors program := by
  cases origin with
  | command command =>
      obtain rfl : program = handleCommand settings command := h
      exact mirrors_handleCommand settings command
  | event container =>
      obtain ⟨event, rfl⟩ := h
      exact mirrors_onStatusEvent settings event

theorem snapshots_of_answered {old books : Books} {k : ℕ} {e : Happening} {op : Op}
    {reply : op.Reply} (hwaits : memory op = none) (h : Answered old k e op reply books) :
    books.snapshots = old.snapshots := by
  cases h with
  | called => rfl
  | rejected => rfl
  | performed answer op =>
      match op, hwaits with
      | .turn, _ | .findMarker .., _ | .createMarker _, _ | .deleteMarkers _, _
      | .deleteServices _, _ | .updateServices .., _ => rfl

/-- A task that is answered goes on with nothing to send, or right behind its
look with a snapshot that is still the one kept. -/
theorem turn_of_answered {s : System} {k : ℕ} {task : Task} {e : Happening} {op : Op}
    {next : op.Reply → Agent Unit} {reply : op.Reply} {books : Books} {q : Turn}
    (hok : StillStored s e) (htask : s.tasks[k]? = some task)
    (hprogram : task.program = .perform op next) (hwaits : memory op = none)
    (hnext : (next reply).Obeys mirroring (mirroring.next q op reply) fun _ q' => q'.Even)
    (h : Answered s.books k e op reply books) :
    ∃ q' : Turn, q'.Even ∧ (next reply).Obeys mirroring q' (fun _ q'' => q''.Even) ∧
      ∀ snapshot, q'.held = some snapshot →
        s.getContainerSnapshot snapshot.serviceIndex = some snapshot := by
  cases h with
  | called answer c => exact ⟨.quiet, even_quiet, hnext, nofun⟩
  | rejected error op reply h =>
      cases op with
      | now | track | tracked | storeSnapshot | emit | sendUpdate | turn => cases h
      | findMarker | createMarker | deleteMarkers | deleteServices | updateServices =>
          exact ⟨.quiet, even_quiet, hnext, nofun⟩
  | performed answer op =>
      match op, hwaits with
      | .findMarker .., _ | .createMarker _, _ | .deleteMarkers _, _ | .deleteServices _, _
      | .updateServices .., _ => exact ⟨.quiet, even_quiet, hnext, nofun⟩
      | .turn, _ =>
          cases q with
          | quiet => exact ⟨.quiet, even_quiet, hnext, nofun⟩
          | kept snapshot => exact ⟨.quiet, even_quiet, hnext, nofun⟩
          | again snapshot => exact ⟨.quiet, even_quiet, hnext, nofun⟩
          | sent snapshot =>
              rcases sentAtOnce_or_quiet hnext with hsends | hquiet
              · refine ⟨.again snapshot, nofun, hnext, fun other hother => ?_⟩
                obtain rfl := Option.some.inj hother
                obtain ⟨origin, program⟩ := task
                obtain rfl : program = _ := hprogram
                refine hok _ ?_
                rw [resent, htask]
                exact hsends
              · exact ⟨.quiet, even_quiet, hquiet, nofun⟩

theorem Mirrored.step {s s' : System} {e : Happening} (hs : s.Mirrored) (hok : StillStored s e)
    (h : System.step settings s e = some s') : s'.Mirrored := by
  rcases moved_cases h with ⟨-, htasks, hreports, services, updates, hbooks⟩ |
    ⟨origin, program, hstarts, -, htasks, hreports, hbooks⟩ |
    ⟨j, task, op, next, reply, books, htask, hprogram, hanswered, -, htasks, hreports, hbooks⟩
  · refine ⟨fun i => ?_, ?_, htasks ▸ hs.tasks⟩
    · rw [getContainerSnapshot, hubSnapshot, hbooks, hreports]
      exact hs.agree i
    · simp only [getContainerSnapshot, hbooks]
      exact hs.counted
  · refine hs.turn rfl even_quiet (mirrors_of_starts hstarts .quiet even_quiet) nofun
      (fun t ht => ?_) hreports hbooks
    rw [htasks] at ht
    exact (List.mem_append.mp ht).imp_right fun hnew => by rw [List.mem_singleton.mp hnew]
  · obtain ⟨hwaits, q, hobeys⟩ := hs.tasks task (List.mem_of_getElem? htask)
    rw [hprogram] at hwaits hobeys
    obtain ⟨q', hq', hnext, hheld⟩ :=
      turn_of_answered hok htask hprogram hwaits (hobeys.2 reply) hanswered
    refine hs.turn (snapshots_of_answered hwaits hanswered) hq' hnext hheld (fun t ht => ?_)
      hreports hbooks
    rw [htasks] at ht
    exact (List.mem_or_eq_of_mem_set ht).imp_right fun hnew => by rw [hnew]

theorem mirrored_start : ({} : System).Mirrored where
  agree _ := rfl
  counted _ _ h := nomatch h
  tasks _ h := nomatch h

end System

/-- In a run in which SYNC only sends again what is still kept,
`getContainerSnapshot` gives for every service the snapshot the Hub was sent
last, and its counts are those of its containers. -/
theorem hub_has_the_snapshots (settings : Settings) {events : List Happening} {s : System}
    (hok : (serviceSystem settings).Along StillStored {} events)
    (hrun : (serviceSystem settings).run {} events = some s) (i : ℤ) :
    s.getContainerSnapshot i = s.hubSnapshot i ∧
      ∀ snapshot, s.getContainerSnapshot i = some snapshot →
        snapshot.serviceIndex = i ∧ Counted snapshot := by
  have hmirrored : s.Mirrored :=
    hok.run_invariant (fun _ _ _ hs hstored hstep => hs.step hstored hstep)
      System.mirrored_start hrun
  exact ⟨hmirrored.agree i, hmirrored.counted i⟩

theorem hub_has_the_deployed_snapshot : ∃ s snapshot,
    (serviceSystem hostSettings).run {} deployedApp = some s ∧
    s.hubSnapshot 2 = some snapshot ∧ s.getContainerSnapshot 2 = some snapshot ∧
    Counted snapshot := by
  obtain ⟨s, task, hrun, -⟩ := run_deployedApp
  have hok : (serviceSystem hostSettings).Along StillStored {} deployedApp := by
    decide +kernel
  have hsent : ((serviceSystem hostSettings).run {} deployedApp).all (fun s =>
      (s.hubSnapshot 2).isSome) = true := by
    decide +kernel
  rw [hrun] at hsent
  obtain ⟨snapshot, hsnapshot⟩ := Option.isSome_iff_exists.mp hsent
  obtain ⟨hagree, hcounted⟩ := hub_has_the_snapshots hostSettings hok hrun 2
  rw [hsnapshot] at hagree
  exact ⟨s, snapshot, hrun, hsnapshot, hagree, (hcounted snapshot hagree).2⟩

end OpticsAgent.Tunnel
