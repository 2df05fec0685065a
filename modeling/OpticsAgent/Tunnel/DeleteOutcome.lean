import Mathlib
import OpticsAgent.Docker.Deletion
import OpticsAgent.Service.EventOwner
import OpticsAgent.Tunnel.Commands

/-!
What DELETE reports when one of its steps fails. The container service reports
the failure and returns as if nothing had happened, so the command goes on to
delete the rows and to report the service removed, and `failed` is never the
last status.
-/

namespace OpticsAgent.Tunnel

open OpticsAgent.Ecma OpticsAgent.Lib OpticsAgent.Docker OpticsAgent.Docker.Agent
open OpticsAgent.Service

/-! ## The statuses of a run and the rows it leaves -/

def statusOf (i : ℤ) : Emission → Option ServiceStatus
  | .serviceStatus j status => if j = i then some status else none
  | _ => none

/-- The last status among these emissions. -/
def lastStatus (i : ℤ) (emitted : List Emission) : Option ServiceStatus :=
  (emitted.filterMap (statusOf i)).getLast?

/-- The rows of service `i`. -/
def rowsOf (i : ℤ) (books : Books) : List ServiceRow × List Marker :=
  (books.services.filter fun row => row.idx = i,
    books.markers.filter fun marker => marker.serviceIndex = i)

variable {W : Type}

/-- What was emitted from `s` to `t`. -/
def emittedSince (s t : Session W) : List Emission :=
  t.books.emitted.drop s.books.emitted.length

/-- From `s` to `t` a failed call was reported last, with the rows of service
`i` as they were. Unless none failed, neither is the service reported removed
last nor are its rows changed. -/
structure AllOrReported (i : ℤ) (s t : Session W) : Prop where
  reported : (∃ c ∈ t.calls.drop s.calls.length, c.2 = false) →
    lastStatus i (emittedSince s t) = some .failed ∧ rowsOf i t.books = rowsOf i s.books
  removed : lastStatus i (emittedSince s t) = some .removed ∨ rowsOf i t.books ≠ rowsOf i s.books →
    ∀ c ∈ t.calls.drop s.calls.length, c.2 = true

variable (settings : Settings)

/-- The session of a command, before it makes its first call. -/
def opened (world : W) (books : Books) : Session W where
  world := world
  books := books

/-- A DELETE command handled to its end. -/
def deleted (host : Host W) (payload : ServicePayload) (deleteScope : DeleteScope) (world : W)
    (books : Books) : Session W :=
  ((opened world books).run host (handleCommand settings (.delete payload deleteScope))).2

/-- What the command needs from docker and the file system. -/
def deleteSteps (payload : ServicePayload) (deleteScope : DeleteScope) : Agent Unit :=
  withPayload payload fun payload =>
    deletionSteps settings payload.serviceName payload.deployPreset deleteScope

/-- Every step of the command succeeds on this docker and file system. -/
def StepsSucceed (host : Host W) (payload : ServicePayload) (deleteScope : DeleteScope)
    (world : W) : Prop :=
  ((opened world {}).run host (deleteSteps settings payload deleteScope)).2.Clean

/-! ## The command makes the calls of its steps -/

theorem calm_deleteEmit (i : ℤ) (emission : Emission) : Calm (deleteEmit i emission) := by
  cases emission with
  | serviceLog j entry => exact .emitted _
  | serviceStatus j status => exact .emitted _
  | containerStatus snapshot => exact .pure ()
  | serviceLogMarkers j markers => exact .pure ()

theorem calm_clearContainerStates (i : ℤ) : Calm (clearContainerStates i) :=
  .bind (.books _) fun _ => .bind (.emitted _) fun _ => .emitted _

theorem calm_emitSnapshot (snapshot : ContainerSnapshot) : Calm (emitSnapshot snapshot) :=
  .bind (.books _) fun _ => .emitted _

/-- What is deleted of the database. -/
theorem calm_forgetService (i : ℤ) (deleteScope : DeleteScope) :
    Calm (do
      await (← Program.ask (Op.books (.deleteMarkers i)))
      removeRows i deleteScope) := by
  refine ⟨.bind (.ask trivial) fun reply => .bind (all_await _ reply) fun _ => ?_,
    fun host s => ?_⟩
  · cases deleteScope with
    | service => exact .bind (.ask trivial) fun reply => all_await _ reply
    | containers =>
        exact .bind (.ask trivial) fun _ => .bind (.ask trivial) fun reply => all_await _ reply
  · cases deleteScope with
    | service => exact ⟨(), rfl⟩
    | containers => exact ⟨(), rfl⟩

/-- A method that is waited for, and then the others go first. -/
theorem calm_turn {α : Type} (a : α) : Calm (do
    Program.ask (Op.books .turn)
    pure a : Agent α) :=
  .bind (.books _) fun _ => .pure a

section InStep

variable {host : Host W}

/-- What is done with the containers once docker gave them. -/
theorem calm_publishContainers (i : ℤ) (containers : List ContainerState)
    (fallback : ContainerStatus) :
    Calm (do
      let snapshot := snapshotFromContainers i containers
      emitSnapshot snapshot
      if containers ≠ [] ∨ fallback = .removed then
        emitToHub (.serviceStatus i (aggregateStatus containers fallback).toServiceStatus)
      pure snapshot) := by
  refine .bind (calm_emitSnapshot _) fun _ => ?_
  split_ifs
  · exact .bind (.emitted _) fun _ => .pure _
  · exact .pure _

theorem lockstep_syncContainerStatus (i : ℤ) (serviceName deployPreset : JsString)
    (fallback : ContainerStatus) :
    Lockstep host (syncContainerStatus settings i serviceName deployPreset fallback)
      (Docker.getContainerSnapshot settings (toDockerName settings.casing serviceName)
        deployPreset) := by
  refine .after (.books _) fun _ => ?_
  exact .before (.callsOnly (callsOnly_getContainerSnapshot settings _ _)) fun containers =>
    calm_publishContainers i containers fallback

theorem lockstep_handleDelete (payload : ServicePayload) (deleteScope : DeleteScope) :
    Lockstep host (handleDelete settings payload deleteScope)
      (deletionSteps settings payload.serviceName payload.deployPreset deleteScope) := by
  refine .bind (.before (lockstep_syncContainerStatus settings _ _ _ _) calm_turn) fun _ _ => ?_
  refine .before (.before (.before (.before ?_ calm_turn) fun _ => ?_) calm_turn)
    fun _ => calm_clearContainerStates _
  · exact lockstep_deleteService settings _ _ _ _ (calm_deleteEmit _)
  · exact calm_forgetService _ deleteScope

theorem clean_deleted_iff (payload : ServicePayload) (deleteScope : DeleteScope) (world : W)
    (books : Books) :
    (deleted settings host payload deleteScope world books).Clean ↔
      StepsSucceed settings host payload deleteScope world := by
  have hstep : Lockstep host (handleCommand settings (.delete payload deleteScope))
      (deleteSteps settings payload deleteScope) := by
    rw [handleCommand, deleteSteps, withPayload, withPayload]
    cases getServiceCommandPayload payload with
    | none => exact .pure () ()
    | some payload => exact lockstep_handleDelete settings payload deleteScope
  exact (hstep (opened world books) (opened world {}) ⟨rfl, rfl⟩).clean_iff

/-! ## The last status -/

/-- Docker's answers do not touch the agent's own books. -/
theorem books_of_callsOnly {α : Type} (host : Host W) {p : Agent α} (h : p.All CallsOnly)
    (s : Session W) :
    (s.run host p).2.books = s.books := by
  refine Program.All.run_invariant (Session.perform host) (fun t => t.books = s.books)
    (fun op t hop ht => ?_) h rfl
  cases op with
  | books op => exact hop.elim
  | call c => exact ht

/-- When the look at the containers throws, nothing was emitted. -/
theorem emitted_of_sync_error {i : ℤ} {serviceName deployPreset : JsString}
    {fallback : ContainerStatus} {s : Session W} {e : JsError}
    (h : (s.run host (syncContainerStatus settings i serviceName deployPreset fallback)).1 =
      .error e) :
    (s.run host
      (syncContainerStatus settings i serviceName deployPreset fallback)).2.books.emitted =
        s.books.emitted := by
  let si := toDockerName settings.casing serviceName
  let tracking : Session W := (s.run host (track i ⟨si, deployPreset⟩)).2
  have hcalls := callsOnly_getContainerSnapshot settings si deployPreset
  have hbooks := congrArg Books.emitted (books_of_callsOnly host hcalls tracking)
  have hrun := Program.Completes.run_of_error
    (Docker.getContainerSnapshot settings si deployPreset)
    (fun containers => (calm_publishContainers i containers fallback).completes host)
    (s := tracking) h
  exact (congrArg (fun x => x.2.books.emitted) hrun).trans hbooks

/-- The deletion reports what its steps throw. -/
theorem completes_v1DeleteService (payload : ServicePayload) (deleteScope : DeleteScope) :
    (v1DeleteService settings payload.serviceName payload.serviceIndex payload.deployPreset
      deleteScope (deleteEmit payload.serviceIndex)).Completes (Session.perform host) := by
  have hemit := calm_deleteEmit payload.serviceIndex
  refine .bind (.bind (.tryCatch _ fun e => ?_) fun _ => (calm_turn _).completes host) fun _ => ?_
  · exact ((hemit _).bind fun _ => Calm.sendLog hemit _ _ _ _).completes host
  · exact (calm_forgetService _ deleteScope).completes host

theorem lastStatus_append_removed (i : ℤ) (emitted : List Emission) :
    lastStatus i (emitted ++ [.serviceStatus i .removed]) = some .removed := by
  rw [lastStatus, List.filterMap_append]
  simp [statusOf]

theorem lastStatus_of_cleared (i : ℤ) {s t : Session W}
    (hgrown : s.books.emitted <+: t.books.emitted) :
    lastStatus i (emittedSince s (t.run host (clearContainerStates i)).2) = some .removed := by
  obtain ⟨more, hmore⟩ := hgrown
  have hemitted : (t.run host (clearContainerStates i)).2.books.emitted =
      s.books.emitted ++ (more ++ [.containerStatus (snapshotFromContainers i [])] ++
        [.serviceStatus i .removed]) := by
    change t.books.emitted ++ [_] ++ [_] = _
    rw [← hmore, List.append_assoc, List.append_assoc, List.append_assoc]
  rw [emittedSince, hemitted, List.drop_left]
  exact lastStatus_append_removed i _

/-- DELETE either emits nothing at all, or `removed` last. -/
theorem emittedSince_handleDelete (host : Host W) (payload : ServicePayload)
    (deleteScope : DeleteScope)
    (s : Session W) :
    emittedSince s (s.run host (handleDelete settings payload deleteScope)).2 = [] ∨
      lastStatus payload.serviceIndex
        (emittedSince s (s.run host (handleDelete settings payload deleteScope)).2) =
          some .removed := by
  let look := syncContainerStatus settings payload.serviceIndex payload.serviceName
    payload.deployPreset .stopped
  let sync := awaited look
  let deletion := awaited (v1DeleteService settings payload.serviceName payload.serviceIndex
    payload.deployPreset deleteScope (deleteEmit payload.serviceIndex))
  cases hsync : (s.run host sync).1 with
  | error e =>
      left
      have hlook : s.run host sync = s.run host look := Session.run_awaited host look s
      rw [handleDelete, Session.run, Program.run_bind_of_error hsync, emittedSince]
      change (s.run host sync).2.books.emitted.drop _ = []
      rw [hlook] at hsync ⊢
      exact List.drop_eq_nil_of_le (congrArg List.length (emitted_of_sync_error settings hsync)).le
  | ok snapshot =>
      right
      have hcompletes : deletion.Completes (Session.perform host) :=
        (completes_v1DeleteService settings payload deleteScope).bind fun _ =>
          (calm_turn _).completes host
      obtain ⟨_, hdeletion⟩ := hcompletes (s.run host sync).2
      rw [handleDelete, Session.run, Program.run_bind_of_ok hsync]
      change lastStatus _ (emittedSince s (Program.run (Session.perform host)
        (deletion >>= fun _ => clearContainerStates payload.serviceIndex)
          (s.run host sync).2).2) = _
      rw [Program.run_bind_of_ok hdeletion]
      exact lastStatus_of_cleared _ ((emitted_grows host sync s).trans
        (emitted_grows host deletion (s.run host sync).2))

/-- A payload with a part missing is ignored. -/
theorem handleCommand_delete (payload : ServicePayload) (deleteScope : DeleteScope) :
    handleCommand settings (.delete payload deleteScope) =
      if payload.serviceIndex < 1 ∨ payload.serviceName = [] ∨ payload.deployPreset = [] then pure ()
      else handleDelete settings payload deleteScope := by
  rw [handleCommand, withPayload, getServiceCommandPayload]
  split_ifs <;> rfl

theorem lastStatus_deleted_ne_failed (payload : ServicePayload) (deleteScope : DeleteScope)
    (world : W) (books : Books) :
    lastStatus payload.serviceIndex (emittedSince (opened world books)
      (deleted settings host payload deleteScope world books)) ≠ some .failed := by
  rw [deleted, handleCommand_delete]
  split_ifs with hignored
  · simp [emittedSince, lastStatus, Session.run]
  · intro hfailed
    rcases emittedSince_handleDelete settings host payload deleteScope
      (opened world books) with hnone | hremoved
    · rw [hnone] at hfailed
      cases hfailed
    · cases hremoved.symm.trans hfailed

end InStep

/-! ## What is told of failures -/

/-- A DELETE that fails half-way is reported, and one that is reported removed
has not failed, exactly when nothing fails at all. -/
theorem delete_all_or_reported_iff (host : Host W) (payload : ServicePayload)
    (deleteScope : DeleteScope) (world : W) (books : Books) :
    AllOrReported payload.serviceIndex (opened world books)
        (deleted settings host payload deleteScope world books) ↔
      StepsSucceed settings host payload deleteScope world := by
  rw [← clean_deleted_iff settings payload deleteScope world books]
  constructor
  · intro h c hc
    by_contra hfailed
    have hlast := (h.reported ⟨c, hc, Bool.eq_false_iff.mpr hfailed⟩).1
    exact lastStatus_deleted_ne_failed settings payload deleteScope world books hlast
  · intro hclean
    refine ⟨?_, fun _ => hclean⟩
    rintro ⟨c, hc, hfailed⟩
    cases hfailed.symm.trans (hclean c hc)

/-! ## A `compose down` that fails -/

/-- Docker refuses `compose down` and nothing else. -/
def refusingHost : Host Unit := fun c world =>
  (match c with
    | .run .. => ⟨[], .ok (some 1)⟩
    | c => willingAnswer c, world)

def composeApp : ServicePayload := ⟨1, js "app", js "COMPOSE"⟩

/-- The row and a marker of the service. -/
def appRows : Books where
  services := [⟨1, .running, 0⟩]
  markers := [⟨1, js "app", js "app", .deploy, 0⟩]

/-- The failure is reported, and then the rows go and `removed` comes last. -/
theorem delete_all_or_reported_fails :
    ¬ AllOrReported 1 (opened () appRows)
      (deleted hostSettings refusingHost composeApp .service () appRows) := by
  intro h
  have hcalled : ∃ c ∈ (deleted hostSettings refusingHost composeApp .service () appRows).calls,
      c.2 = false := by decide +kernel
  have hlast : lastStatus 1 (deleted hostSettings refusingHost composeApp .service ()
      appRows).books.emitted = some .removed := by decide +kernel
  cases hlast.symm.trans (h.reported hcalled).1

end OpticsAgent.Tunnel
