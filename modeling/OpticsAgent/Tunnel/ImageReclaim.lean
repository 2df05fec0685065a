import Mathlib
import OpticsAgent.Docker.ImageTags
import OpticsAgent.Tunnel.DeleteOutcome
import OpticsAgent.Tunnel.SessionMarkers

/-!
The images a service leaves behind. A deployment tags its image with the version
of the service; DELETE names the image without a tag.
-/

namespace OpticsAgent.Tunnel

open OpticsAgent.Ecma OpticsAgent.Node OpticsAgent.Lib OpticsAgent.Docker
open OpticsAgent.Docker.Agent OpticsAgent.Service

variable (settings : Settings) {W : Type} (host : Host W)

/-- A DEPLOY or REDEPLOY of the service docker knows under this name. -/
def DeploysService (si : JsString) : Command → Prop
  | .deploy data | .redeploy data => toDockerName settings.casing data.serviceName = si
  | _ => False

/-- The commands handled one after the other. -/
def handledAll (commands : List Command) (s : Session W) : Session W :=
  commands.foldl (fun s c => (s.run host (handleCommand settings c)).2) s

/-- A build of the service with this version succeeded. -/
def BuiltVersion (si : JsString) (calls : List (Call × Bool)) (version : JsString) : Prop :=
  ∃ context src, (Call.buildImage context src (si ++ js ":" ++ version), true) ∈ calls

/-! ## What deployments build -/

section Deployments

-- The programs below decide on texts; their branches are not to be evaluated.
attribute [local irreducible] Program.All

theorem deployStep_sync (name : JsString) (i : ℤ) (serviceName deployPreset : JsString)
    (fallback : ContainerStatus) :
    (syncContainerStatus settings i serviceName deployPreset fallback).All (DeployStep name) := by
  apply all_syncContainerStatus
  · intro op
    exact Looks.deployStep
  · exact fun _ _ => trivial
  · exact fun _ => trivial
  · exact fun _ => trivial

theorem buildsFor_handleDeploy (data : DeployCommand) (event : MarkerEvent) :
    (handleDeploy settings data event).All
      (BuildsForOp (toDockerName settings.casing data.serviceName)) := by
  unfold handleDeploy createServiceSessionMarker
  apply Program.All.bind
  · apply all_awaited trivial
    apply Program.All.bind (Program.All.ask trivial)
    intro timestamp
    apply Program.All.bind (Program.All.ask trivial)
    intro reply
    apply Program.All.bind (all_await _ reply)
    intro duplicate
    apply all_ite
    · exact .pure ()
    · apply Program.All.bind (Program.All.ask trivial)
      intro reply
      exact .bind (all_await _ reply) fun _ => .ask trivial
  · intro _
    apply Program.All.bind
    · exact .bind (.ask trivial) fun _ => .bind (.ask trivial) fun _ => .ask trivial
    · intro _
      apply (deployStep_v1DeployService settings data).mono
      intro op
      exact DeployStep.buildsFor

end Deployments

theorem buildsFor_handledAll {si : JsString} {commands : List Command}
    (h : ∀ c ∈ commands, DeploysService settings si c) {s : Session W}
    (hs : ∀ call ∈ s.calls, BuildsFor si call.1) :
    ∀ call ∈ (handledAll settings host commands s).calls, BuildsFor si call.1 := by
  induction commands generalizing s with
  | nil => exact hs
  | cons c commands ih =>
      obtain ⟨hc, hcommands⟩ := List.forall_mem_cons.mp h
      apply ih hcommands
      have hsteps : (handleCommand settings c).All (BuildsForOp si) := by
        match c with
        | .deploy data =>
            rw [← (hc : toDockerName settings.casing data.serviceName = si)]
            exact buildsFor_handleDeploy settings data .deploy
        | .redeploy data =>
            rw [← (hc : toDockerName settings.casing data.serviceName = si)]
            exact buildsFor_handleDeploy settings data .redeploy
      exact buildsFor_run hsteps hs

/-! ## What DELETE takes -/

/-- For a Dockerfile service the look at the container is one `docker inspect`. -/
theorem world_sync {payload : ServicePayload} (fallback : ContainerStatus)
    (hpreset : isComposePreset settings.casing payload.deployPreset = false) (s : Session W) :
    (s.run host (syncContainerStatus settings payload.serviceIndex payload.serviceName
      payload.deployPreset fallback)).2.world =
        afterLook host (toDockerName settings.casing payload.serviceName) s.world := by
  let si := toDockerName settings.casing payload.serviceName
  let tracking : Session W := (s.run host (track payload.serviceIndex ⟨si, payload.deployPreset⟩)).2
  have hlook : (tracking.run host (getContainerSnapshot settings si payload.deployPreset)).2.world =
      afterLook host si s.world := by
    rw [getContainerSnapshot, hpreset, if_neg Bool.false_ne_true]
    exact world_inspectDockerfileContainer settings si tracking
  rw [← hlook]
  change (tracking.run host (getContainerSnapshot settings si payload.deployPreset >>= _)).2.world =
    _
  cases hcontainers : (tracking.run host
      (getContainerSnapshot settings si payload.deployPreset)).1 with
  | error e =>
      rw [Session.run, Program.run_bind_of_error hcontainers]
      rfl
  | ok containers =>
      rw [Session.run, Program.run_bind_of_ok hcontainers]
      have hcalm := calm_publishContainers payload.serviceIndex containers fallback
      exact (Session.same_of_booksOnly host hcalm.booksOnly ⟨rfl, rfl⟩).world

theorem tagsAfter_v1DeleteService (payload : ServicePayload) (tags : List JsString)
    (s : Session W) :
    tagsAfter tags (s.run host (v1DeleteService settings payload.serviceName payload.serviceIndex
      payload.deployPreset .service (deleteEmit payload.serviceIndex))).2.calls =
      if isComposePreset settings.casing payload.deployPreset = false ∧
          ImageGoes host (toDockerName settings.casing payload.serviceName) s.world then
        (tagsAfter tags s.calls).filter
          (· ≠ fullReference (toDockerName settings.casing payload.serviceName))
      else tagsAfter tags s.calls := by
  have hemit := calm_deleteEmit payload.serviceIndex
  have hlog := Calm.sendLog hemit payload.serviceIndex
    (toDockerName settings.casing payload.serviceName) .lifecycle
  have hreport : ∀ (status : ServiceStatus) line, (do
      sendStatus (deleteEmit payload.serviceIndex) payload.serviceIndex status
      sendLog (deleteEmit payload.serviceIndex) payload.serviceIndex
        (toDockerName settings.casing payload.serviceName) .lifecycle line : Agent Unit).All
      NoImageOp :=
    fun status line => noImage_of_booksOnly (Calm.bind (hemit _) fun _ => hlog line).booksOnly
  have hrows := noImage_of_booksOnly (calm_forgetService payload.serviceIndex .service).booksOnly
  refine (tagsAfter_bind (fun _ => hrows) tags s).trans ?_
  rw [Session.run_awaited]
  refine (tagsAfter_guarded (fun e => hreport .failed _) tags s).trans ?_
  let si := toDockerName settings.casing payload.serviceName
  let log := sendLog (deleteEmit payload.serviceIndex) payload.serviceIndex si .lifecycle
  let starts := log (about (js "Deleting service ") si (js "..."))
  obtain ⟨_, hvalue⟩ := (hlog (about (js "Deleting service ") si (js "..."))).completes host s
  have hsame : Session.Same (s.run host starts).2 s :=
    Session.same_of_booksOnly host (hlog _).booksOnly ⟨rfl, rfl⟩
  have hsteps : ∀ name line, (log line).All (DeployStep name) :=
    fun name => all_sendLog (fun emission => deployStep_deleteEmit _ emission) trivial _ _ _
  rw [Session.run, Program.run_bind_of_ok hvalue]
  refine (tagsAfter_bind (fun _ => hreport .removed _) tags (s.run host starts).2).trans ?_
  rw [tagsAfter_removeService hlog hsteps, hsame.calls, hsame.world]
  rfl

/-- A DELETE that emits anything has a payload with all its parts, and its look
at the containers did not throw. -/
theorem sync_of_emitted {payload : ServicePayload} {deleteScope : DeleteScope} {s : Session W}
    {emission : Emission} (h : emission ∈ emittedSince s
      (s.run host (handleCommand settings (.delete payload deleteScope))).2) :
    handleCommand settings (.delete payload deleteScope) =
        handleDelete settings payload deleteScope ∧
      ∃ snapshot, (s.run host (syncContainerStatus settings payload.serviceIndex
        payload.serviceName payload.deployPreset .stopped)).1 = .ok snapshot := by
  rw [handleCommand_delete] at h ⊢
  split_ifs at h ⊢ with hignored
  · have hnone : emittedSince s s = [] := List.drop_eq_nil_of_le (le_refl _)
    have hsame : emission ∈ emittedSince s s := h
    rw [hnone] at hsame
    cases hsame
  · refine ⟨rfl, ?_⟩
    cases hsync : (s.run host (syncContainerStatus settings payload.serviceIndex
        payload.serviceName payload.deployPreset .stopped)).1 with
    | ok snapshot => exact ⟨snapshot, rfl⟩
    | error e =>
        have hawaited := Session.run_awaited host (syncContainerStatus settings
          payload.serviceIndex payload.serviceName payload.deployPreset .stopped) s
        have hemitted := emitted_of_sync_error settings hsync
        have hnone : emittedSince s (s.run host (syncContainerStatus settings payload.serviceIndex
            payload.serviceName payload.deployPreset .stopped)).2 = [] :=
          List.drop_eq_nil_of_le (congrArg List.length hemitted).le
        rw [← hawaited] at hsync hnone
        rw [handleDelete, Session.run, Program.run_bind_of_error hsync] at h
        have hsame : emission ∈ emittedSince s (s.run host (awaited (syncContainerStatus settings
          payload.serviceIndex payload.serviceName payload.deployPreset .stopped))).2 := h
        rw [hnone] at hsame
        cases hsame

/-- A reported DELETE takes the tag `latest` of a Dockerfile service, when docker
lets its container and its image go, and no other. -/
theorem mem_tagsAfter_delete {payload : ServicePayload} {tags : List JsString} {s : Session W}
    {emission : Emission} (h : emission ∈ emittedSince s
      (s.run host (handleCommand settings (.delete payload .service))).2) (tag : JsString) :
    tag ∈ tagsAfter tags
        (s.run host (handleCommand settings (.delete payload .service))).2.calls ↔
      tag ∈ tagsAfter tags s.calls ∧
        ¬ (isComposePreset settings.casing payload.deployPreset = false ∧
          ImageGoes host (toDockerName settings.casing payload.serviceName)
            (afterLook host (toDockerName settings.casing payload.serviceName) s.world) ∧
          tag = toDockerName settings.casing payload.serviceName ++ js ":latest") := by
  obtain ⟨hhandled, snapshot, hsync⟩ := sync_of_emitted settings host h
  let sync := syncContainerStatus settings payload.serviceIndex payload.serviceName
    payload.deployPreset .stopped
  have hawaited : s.run host (awaited sync) = s.run host sync := Session.run_awaited host sync s
  have hclear : (clearContainerStates payload.serviceIndex).All NoImageOp :=
    noImage_of_booksOnly (calm_clearContainerStates _).booksOnly
  have hlook : tagsAfter tags (s.run host sync).2.calls = tagsAfter tags s.calls := by
    apply tagsAfter_run
    apply noImage_of_deployStep
    intro name
    exact deployStep_sync settings name _ _ _ _
  have hdelete := tagsAfter_v1DeleteService settings host payload tags (s.run host sync).2
  rw [hlook, fullReference_name (isDockerName_toDockerName _ _)] at hdelete
  rw [← Session.run_awaited] at hdelete
  have hrun := (tagsAfter_bind (fun _ => hclear) tags (s.run host sync).2).trans hdelete
  have hfound : (s.run host (awaited sync)).1 = .ok snapshot := by
    rw [hawaited]
    exact hsync
  rw [hhandled, handleDelete, Session.run, Program.run_bind_of_ok hfound]
  change tag ∈ tagsAfter tags (Session.run host _ (s.run host (awaited sync)).2).2.calls ↔ _
  rw [hawaited, hrun]
  by_cases hpreset : isComposePreset settings.casing payload.deployPreset = false
  · rw [world_sync settings host .stopped hpreset]
    split_ifs with hgoes
    · rw [List.mem_filter, decide_eq_true_iff]
      constructor
      · rintro ⟨hmem, hother⟩
        exact ⟨hmem, fun htaken => hother htaken.2.2⟩
      · rintro ⟨hmem, hstays⟩
        exact ⟨hmem, fun hlatest => hstays ⟨hgoes.1, hgoes.2, hlatest⟩⟩
    · constructor
      · exact fun hmem => ⟨hmem, fun htaken => hgoes ⟨htaken.1, htaken.2.1⟩⟩
      · exact And.left
  · rw [if_neg fun h => hpreset h.1]
    constructor
    · exact fun hmem => ⟨hmem, fun htaken => hpreset htaken.1⟩
    · exact And.left

/-! ## The tags that are left -/

/-- The calls of a history of deployments, from a fresh session. -/
def deployed (commands : List Command) (world : W) (books : Books) : Session W :=
  handledAll settings host commands (opened world books)

theorem mem_createdTags_iff {si : JsString} {calls : List (Call × Bool)}
    (h : ∀ call ∈ calls, BuildsFor si call.1) (tag : JsString) :
    tag ∈ createdTags calls ↔
      ∃ version, BuiltVersion si calls version ∧ tag = fullReference (si ++ js ":" ++ version) := by
  rw [createdTags, List.mem_filterMap]
  constructor
  · rintro ⟨⟨c, ok⟩, hmem, hcreated⟩
    have hbuilds := h _ hmem
    cases c with
    | buildImage context src reference =>
        cases ok with
        | false => cases hcreated
        | true =>
            obtain ⟨version, rfl⟩ := hbuilds
            exact ⟨version, ⟨context, src, hmem⟩, (Option.some.inj hcreated).symm⟩
    | _ => cases hcreated
  · rintro ⟨version, ⟨context, src, hmem⟩, rfl⟩
    exact ⟨_, hmem, rfl⟩

/-- A DELETE that reports `removed` leaves no tag of the deployments exactly when
no build succeeded, or when they all built the version `latest` and docker let
the container and the image of the Dockerfile service go. -/
theorem images_reclaimed_iff {history : List Command} {payload : ServicePayload} {world : W}
    {books : Books}
    (hhistory : ∀ c ∈ history,
      DeploysService settings (toDockerName settings.casing payload.serviceName) c)
    (hreported : .serviceStatus payload.serviceIndex .removed ∈
      emittedSince (deployed settings host history world books)
        ((deployed settings host history world books).run host
          (handleCommand settings (.delete payload .service))).2)
    (tags : List JsString) :
    (∀ tag ∈ createdTags (deployed settings host history world books).calls,
      tag ∉ tagsAfter tags ((deployed settings host history world books).run host
        (handleCommand settings (.delete payload .service))).2.calls) ↔
    (∀ version, BuiltVersion (toDockerName settings.casing payload.serviceName)
        (deployed settings host history world books).calls version →
      version = js "latest" ∧ isComposePreset settings.casing payload.deployPreset = false ∧
        ImageGoes host (toDockerName settings.casing payload.serviceName)
          (afterLook host (toDockerName settings.casing payload.serviceName)
            (deployed settings host history world books).world)) := by
  have hbuilds : ∀ call ∈ (deployed settings host history world books).calls,
      BuildsFor (toDockerName settings.casing payload.serviceName) call.1 :=
    buildsFor_handledAll settings host hhistory (List.forall_mem_nil _)
  have hname := isDockerName_toDockerName settings.casing payload.serviceName
  generalize deployed settings host history world books = s at *
  generalize hsi : toDockerName settings.casing payload.serviceName = si at *
  constructor
  · intro hleft version hversion
    have hcreated : fullReference (si ++ js ":" ++ version) ∈ createdTags s.calls :=
      (mem_createdTags_iff hbuilds _).mpr ⟨version, hversion, rfl⟩
    have hthere : fullReference (si ++ js ":" ++ version) ∈ tagsAfter tags s.calls :=
      (mem_tagsAfter_iff hbuilds tags _).mpr (.inr hcreated)
    have hgone := hleft _ hcreated
    rw [mem_tagsAfter_delete settings host hreported, hsi] at hgone
    obtain ⟨hpreset, hgoes, hlatest⟩ := not_not.mp fun hstays => hgone ⟨hthere, hstays⟩
    exact ⟨(fullReference_version hname).mp hlatest, hpreset, hgoes⟩
  · intro hversions tag hcreated
    obtain ⟨version, hversion, rfl⟩ := (mem_createdTags_iff hbuilds tag).mp hcreated
    obtain ⟨hlatest, hpreset, hgoes⟩ := hversions version hversion
    rw [mem_tagsAfter_delete settings host hreported, hsi]
    rintro ⟨-, hstays⟩
    exact hstays ⟨hpreset, hgoes, (fullReference_version hname).mpr hlatest⟩

/-! ## A version of its own -/

/-- A docker that does whatever it is told. -/
def willingHost : Host Unit := fun c world => (willingAnswer c, world)

/-- A DEPLOY of a Dockerfile service in this version. -/
def deployOfApp (version : String) : Command :=
  .deploy
    { serviceIndex := 1
      sourceUrl := .one (js "https://example.com/app.git")
      serviceName := js "app"
      serviceVersion := js version
      servicePort := Number.ofInt 80
      deployPreset := js "DOCKERFILE" }

def dockerfileApp : ServicePayload := ⟨1, js "app", js "DOCKERFILE"⟩

/-- The DELETE of the service after these deployments. -/
def deletedApp (history : List Command) : Session Unit :=
  ((deployed hostSettings willingHost history () {}).run willingHost
    (handleCommand hostSettings (.delete dockerfileApp .service))).2

theorem images_reclaimed_iff_latest :
    (∀ tag ∈ createdTags (deployed hostSettings willingHost [deployOfApp "latest"] () {}).calls,
      tag ∉ tagsAfter [] (deletedApp [deployOfApp "latest"]).calls) ↔
    (∀ version, BuiltVersion (toDockerName hostSettings.casing (js "app"))
        (deployed hostSettings willingHost [deployOfApp "latest"] () {}).calls version →
      version = js "latest" ∧
        isComposePreset hostSettings.casing dockerfileApp.deployPreset = false ∧
        ImageGoes willingHost (toDockerName hostSettings.casing (js "app"))
          (afterLook willingHost (toDockerName hostSettings.casing (js "app"))
            (deployed hostSettings willingHost [deployOfApp "latest"] () {}).world)) := by
  have hhistory : ∀ c ∈ [deployOfApp "latest"],
      DeploysService hostSettings (toDockerName hostSettings.casing (js "app")) c :=
    List.forall_mem_singleton.mpr rfl
  have hreported : .serviceStatus 1 .removed ∈
      emittedSince (deployed hostSettings willingHost [deployOfApp "latest"] () {})
        (deletedApp [deployOfApp "latest"]) := by
    decide +kernel
  exact images_reclaimed_iff hostSettings willingHost hhistory hreported []

/-- Version `1.0` is built, and DELETE asks for the tag `latest`. -/
theorem images_reclaimed_fails :
    .serviceStatus 1 .removed ∈
        emittedSince (deployed hostSettings willingHost [deployOfApp "1.0"] () {})
          (deletedApp [deployOfApp "1.0"]) ∧
      ¬ ∀ tag ∈ createdTags (deployed hostSettings willingHost [deployOfApp "1.0"] () {}).calls,
        tag ∉ tagsAfter [] (deletedApp [deployOfApp "1.0"]).calls := by
  refine ⟨by decide +kernel, ?_⟩
  intro hleft
  have hcreated : js "app:1.0" ∈
      createdTags (deployed hostSettings willingHost [deployOfApp "1.0"] () {}).calls := by
    decide +kernel
  have hthere : js "app:1.0" ∈ tagsAfter [] (deletedApp [deployOfApp "1.0"]).calls := by
    decide +kernel
  exact hleft _ hcreated hthere

end OpticsAgent.Tunnel
