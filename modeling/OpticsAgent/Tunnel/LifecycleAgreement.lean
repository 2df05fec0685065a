import Mathlib
import OpticsAgent.Tunnel.DeployedContainers
import OpticsAgent.Tunnel.StopOutcome

/-!
Whether the operations on a service find what its deployment started. The
deployment decides by the preset and by the compose file in the clone, the
operations decide by the preset alone. They part where a preset that is neither
`COMPOSE` nor `DOCKERFILE` meets a repository without a compose file: the one
container is then looked for in a project docker does not have.
-/

namespace OpticsAgent.Tunnel

open OpticsAgent.Ecma OpticsAgent.Node OpticsAgent.Lib OpticsAgent.Docker OpticsAgent.Docker.Agent
open OpticsAgent.Service

variable {W : Type} (docker : Dockerd W) (settings : Settings) (data : DeployCommand)

/-! ## What is to hold of the operations -/

/-- A deployment, as a command asks for it. -/
def deployment : Agent Bool :=
  deploy settings data deployEmit fun services =>
    emitExpectedContainers settings data.serviceIndex data.serviceName data.deployPreset services

/-- What is looked at to see the containers of the service. -/
def lookedAt : Agent (List ContainerState) :=
  Docker.getContainerSnapshot settings (data.dockerName settings) data.deployPreset

/-- Docker behind a removal of the service that begins at `u`. -/
def afterDelete (deleteScope : DeleteScope) (u : Session W) : Session W :=
  (u.run docker.host (deleteService settings data.serviceIndex data.serviceName data.deployPreset
    deleteScope (deleteEmit data.serviceIndex))).2

/-- The operations with the preset of a deployment that led from `s` to `t` are about
what it started: they address that, a look right behind it names that, and what is
reported removed does not run. -/
structure LifecycleAgrees (s t : Session W) : Prop where
  snapshot : docker.Agrees (lookedAt settings data) (data.dockerName settings) s t
  stop : docker.Agrees (stopService settings data.serviceIndex data.serviceName data.deployPreset
    (serviceEmit data.serviceIndex)) (data.dockerName settings) s t
  restart : docker.Agrees (restartService settings data.serviceIndex data.serviceName
    data.deployPreset (serviceEmit data.serviceIndex)) (data.dockerName settings) s t
  delete : ∀ deleteScope, docker.Agrees (deleteService settings data.serviceIndex data.serviceName
    data.deployPreset deleteScope (deleteEmit data.serviceIndex)) (data.dockerName settings) s t
  listed : ∃ found, (t.run docker.host (lookedAt settings data)).1 = .ok found ∧
    ∀ k, docker.Started s t k → ∃ c ∈ found, c.name = k.name
  removed : ∀ u deleteScope,
    ReportsRemoved data.serviceIndex u (afterDelete docker settings data deleteScope u) →
      ∀ k, docker.Started s t k →
        ¬ docker.runs (afterDelete docker settings data deleteScope u).world k

/-- Reached from `t` by looks at the service, stops, restarts and removals. -/
inductive Operated (t : Session W) : Session W → Prop
  | start : Operated t t
  | look {u : Session W} (h : Operated t u) :
      Operated t (u.run docker.host (lookedAt settings data)).2
  | stop {u : Session W} (h : Operated t u) :
      Operated t (u.run docker.host (stopService settings data.serviceIndex data.serviceName
        data.deployPreset (serviceEmit data.serviceIndex))).2
  | restart {u : Session W} (h : Operated t u) :
      Operated t (u.run docker.host (restartService settings data.serviceIndex data.serviceName
        data.deployPreset (serviceEmit data.serviceIndex))).2
  | delete {u : Session W} (deleteScope : DeleteScope) (h : Operated t u) :
      Operated t (afterDelete docker settings data deleteScope u)

/-! ## What is looked at right behind the deployment -/

/-- The query the snapshot falls back to is answered. -/
def QueryAnswered (w : W) : Prop :=
  if isComposePreset settings.casing data.deployPreset then
    (docker.host (.runSync (projectPsArgs (data.dockerName settings)) none) w).1.status = some 0
  else
    (docker.host (.runSync [js "inspect", data.dockerName settings] none) w).1.status = some 0

/-- Docker answers about the service, and names every container that the operations
address. -/
def NamesAddressed (w : W) : Prop :=
  ∃ containers, ShowsService settings docker.host (data.dockerName settings) data.deployPreset
      containers w ∧
    QueryAnswered docker settings data w ∧
    ∀ k, docker.holds w k →
      (lifecycleTarget settings data.serviceName data.deployPreset).Finds k →
        ∃ c ∈ containers, c.name = k.name

variable {docker settings data}

theorem named_of_forall₂ {codeSeen : Bool} {containers : List Container}
    {found : List ContainerState} (h : List.Forall₂ (SeenAs · codeSeen) containers found)
    {c : Container} (hc : c ∈ containers) : ∃ seen ∈ found, seen.name = c.name := by
  induction h with
  | nil => cases hc
  | cons hfirst _ ih =>
      rcases List.mem_cons.mp hc with rfl | hc
      · exact ⟨_, List.mem_cons_self, hfirst.name⟩
      · obtain ⟨seen, hseen, hname⟩ := ih hc
        exact ⟨seen, List.mem_cons_of_mem _ hseen, hname⟩

/-- What docker shows of the service is found. -/
theorem run_lookedAt (hcasing : LowersAscii settings.casing) {containers : List Container}
    {s : Session W} (hshows : ShowsService settings docker.host (data.dockerName settings)
      data.deployPreset containers s.world)
    (hanswered : QueryAnswered docker settings data s.world) :
    ∃ found codeSeen, (s.run docker.host (lookedAt settings data)).1 = .ok found ∧
      List.Forall₂ (SeenAs · codeSeen) containers found := by
  unfold lookedAt
  cases hshows with
  | dockerfile reply hpreset hreply hlists =>
      obtain ⟨found, hfound, hall⟩ := run_inspect settings hreply hlists
      rw [QueryAnswered, hpreset, hreply] at hanswered
      have hstatus : reply.status = some 0 := hanswered
      rw [Docker.getContainerSnapshot, hpreset]
      rw [if_pos hstatus] at hall
      exact ⟨found, true, hfound, hall⟩
  | compose project present composePs ps hpreset hcontainers hshows =>
      obtain ⟨found, hfound, hby, hnot⟩ := run_listComposeContainers settings hshows
        fun c _ => healthRead hcasing c
      rw [QueryAnswered, if_pos hpreset, hshows.byLabel.1] at hanswered
      rw [Docker.getContainerSnapshot, if_pos hpreset, hcontainers]
      by_cases hcompose : ByCompose project present composePs
      · exact ⟨found, true, hfound, forall₂_seenAs (hby hcompose)⟩
      · have hlabels := hnot hcompose
        rw [if_pos hanswered] at hlabels
        exact ⟨found, false, hfound, forall₂_seenAs hlabels⟩

/-! ## The way taken -/

theorem chosen_env {found : Bool} (h : Due.chosen settings data found = .env) :
    isComposePreset settings.casing data.deployPreset = true ∧ found = true := by
  unfold Due.chosen at h
  dsimp only at h
  split_ifs at h with hmissing hcompose
  rcases (Bool.or_eq_true _ _).mp hcompose with hpreset | hpreset
  · have hpreset := eq_of_beq hpreset
    rw [isComposePreset, hpreset]
    refine ⟨by decide, ?_⟩
    simpa [hpreset] using hmissing
  · exact (Bool.and_eq_true _ _).mp hpreset

theorem chosen_source {found : Bool} (h : Due.chosen settings data found = .source)
    (hpreset : isComposePreset settings.casing data.deployPreset = true) : found = false := by
  unfold Due.chosen at h
  dsimp only at h
  split_ifs at h with hmissing hcompose
  rw [← Bool.not_eq_true]
  intro hfound
  apply hcompose
  exact (Bool.or_eq_true _ _).mpr (.inr ((Bool.and_eq_true _ _).mpr ⟨hpreset, hfound⟩))

/-! ## What the deployment started -/

section Started

variable {s t : Session W} {k : KnownContainer}

/-- Only the last call of the deployment started anything. -/
theorem started_iff {more : List (Call × Bool)} {c : Call}
    (hcalls : callsSince s t = more ++ [(c, true)])
    (hnothing : ∀ d ∈ more, ∀ files k, ¬ Starts files d.1 k) :
    docker.Started s t k ↔
      docker.holds t.world k ∧ Starts (docker.services t.world) c k := by
  constructor
  · rintro ⟨hheld, d, hd, -, hstarts⟩
    refine ⟨hheld, ?_⟩
    rw [hcalls] at hd
    rcases List.mem_append.mp hd with hd | hd
    · exact absurd hstarts (hnothing d hd _ k)
    · obtain rfl := List.mem_singleton.mp hd
      exact hstarts
  · rintro ⟨hheld, hstarts⟩
    refine ⟨hheld, (c, true), ?_, rfl, hstarts⟩
    rw [hcalls]
    exact List.mem_append_right _ List.mem_cons_self

theorem starts_up_iff {files : JsString → List JsString} {project dir : JsString} :
    Starts files (.run (composeUpArgs project) (some dir)) k ↔
      k.project = some project ∧ k.Serves (files dir) := by
  constructor
  · rintro ⟨other, hargs, hproject, hserves⟩
    obtain rfl : project = other := Option.some.inj (congrArg (fun args => args[2]?) hargs)
    exact ⟨hproject, hserves⟩
  · rintro ⟨hproject, hserves⟩
    exact ⟨project, rfl, hproject, hserves⟩

/-- Whatever comes and goes afterwards, the operation addresses what is there of
what was started. -/
theorem agrees_of_obeys {α : Type} {p : Agent α}
    (hobeys : p.Obeys (addressing (lifecycleTarget settings data.serviceName data.deployPreset))
      .untouched fun _ q => q ≠ .untouched)
    (hstarted : ∀ k, docker.Started s t k ↔ docker.holds t.world k ∧
      (lifecycleTarget settings data.serviceName data.deployPreset).Finds k) :
    docker.Agrees p (data.dockerName settings) s t := by
  intro u hnew k
  rw [docker.addressed_iff hobeys, hstarted]
  refine and_congr_right fun hheld => ⟨fun hfinds => ⟨?_, hfinds⟩, And.right⟩
  apply hnew k _ hheld
  unfold lifecycleTarget at hfinds
  split_ifs at hfinds
  · exact .inl hfinds
  · exact .inr hfinds

theorem obeys_lookedAt : (lookedAt settings data).Obeys
    (addressing (lifecycleTarget settings data.serviceName data.deployPreset)) .untouched
      fun _ q => q ≠ .untouched :=
  obeys_getContainerSnapshot settings data.serviceName data.deployPreset

/-- Nothing comes by the operations. -/
theorem nothingNew_of_operated {u : Session W} (h : Operated docker settings data t u) :
    docker.NothingNew (data.dockerName settings) t u := by
  induction h with
  | start => exact fun _ _ hheld => hheld
  | look _ ih => exact ih.run obeys_lookedAt
  | stop _ ih => exact ih.run (q := .untouched) (obeys_stopService settings _ _)
  | restart _ ih => exact ih.run (q := .untouched) (obeys_restartService settings _ _)
  | delete deleteScope _ ih =>
      exact ih.run (q := .untouched) (obeys_deleteService settings _ _ deleteScope)

/-- After any of them a removal addresses what is left of the deployment. -/
theorem LifecycleAgrees.delete_addresses (h : LifecycleAgrees docker settings data s t)
    {u : Session W} (hu : Operated docker settings data t u) (deleteScope : DeleteScope) :
    docker.Addressed (deleteService settings data.serviceIndex data.serviceName
      data.deployPreset deleteScope (deleteEmit data.serviceIndex)) u k ↔
        docker.holds u.world k ∧ docker.Started s t k :=
  h.delete deleteScope u (nothingNew_of_operated hu) k

theorem lifecycleAgrees_of_started (hcasing : LowersAscii settings.casing)
    (hnames : NamesAddressed docker settings data t.world)
    (hstarted : ∀ k, docker.Started s t k ↔ docker.holds t.world k ∧
      (lifecycleTarget settings data.serviceName data.deployPreset).Finds k) :
    LifecycleAgrees docker settings data s t where
  snapshot := agrees_of_obeys obeys_lookedAt hstarted
  stop := agrees_of_obeys (obeys_stopService settings data.serviceName data.deployPreset) hstarted
  restart := agrees_of_obeys (obeys_restartService settings data.serviceName data.deployPreset)
    hstarted
  delete deleteScope := agrees_of_obeys
    (obeys_deleteService settings data.serviceName data.deployPreset deleteScope) hstarted
  listed := by
    obtain ⟨containers, hshows, hanswered, hnamed⟩ := hnames
    obtain ⟨found, codeSeen, hfound, hall⟩ := run_lookedAt hcasing hshows hanswered
    refine ⟨found, hfound, fun k hk => ?_⟩
    obtain ⟨hheld, hfinds⟩ := (hstarted k).mp hk
    obtain ⟨c, hc, hname⟩ := hnamed k hheld hfinds
    obtain ⟨seen, hseen, hsame⟩ := named_of_forall₂ hall hc
    exact ⟨seen, hseen, hsame.trans hname⟩
  removed := by
    intro u deleteScope hreported k hk hruns
    have hfinds := ((hstarted k).mp hk).2
    apply docker.gone_of_reported (obeys_deleteService settings data.serviceName data.deployPreset
      deleteScope) hreported hfinds
    exact docker.held_of_runs _ k hruns

end Started

/-- What a deployment with compose started are the containers of the project, but for
the orphans. -/
theorem started_iff_finds_compose {services : List JsString} {s t : Session W}
    {more : List (Call × Bool)}
    (hcalls : callsSince s t = more ++ [(.run (composeUpArgs (data.dockerName settings))
      (some (data.contextDir settings)), true)])
    (hnothing : ∀ d ∈ more, ∀ files k, ¬ Starts files d.1 k)
    (hservices : docker.services t.world (data.contextDir settings) = services)
    (hkeeps : docker.Keeps settings data services s.world t.world)
    (hpreset : isComposePreset settings.casing data.deployPreset = true) :
    (∀ k, docker.Started s t k ↔ docker.holds t.world k ∧
        (lifecycleTarget settings data.serviceName data.deployPreset).Finds k) ↔
      ∀ k, ¬ docker.Leftover settings data services s.world k := by
  have hstarted : ∀ k, docker.Started s t k ↔ docker.holds t.world k ∧
      k.project = some (data.dockerName settings) ∧ k.Serves services := by
    intro k
    rw [started_iff hcalls hnothing, starts_up_iff, hservices]
  rw [lifecycleTarget, if_pos hpreset]
  constructor
  · intro hfinds k hleft
    obtain ⟨horphan, -⟩ := id hleft
    have hheld := (hkeeps k horphan).mpr hleft
    have hserves := (hstarted k).mp ((hfinds k).mpr ⟨hheld, horphan.1⟩)
    exact horphan.2 hserves.2.2
  · intro hnone k
    rw [hstarted]
    refine and_congr_right fun hheld => ⟨And.left, fun hproject => ⟨hproject, ?_⟩⟩
    by_contra hserves
    have horphan : Dockerd.Orphan settings data services k := ⟨hproject, hserves⟩
    exact hnone k ((hkeeps k horphan).mp hheld)

/-- The one container is what the operations address when the preset says so. -/
theorem started_iff_finds_container {s t : Session W} {more : List (Call × Bool)}
    (hcalls : callsSince s t = more ++ [(.startContainer (data.dockerName settings), true)])
    (hnothing : ∀ d ∈ more, ∀ files k, ¬ Starts files d.1 k) {k : KnownContainer}
    (hname : k.name = data.dockerName settings) (hproject : k.project = none)
    (hheld : docker.holds t.world k) :
    (∀ k, docker.Started s t k ↔ docker.holds t.world k ∧
        (lifecycleTarget settings data.serviceName data.deployPreset).Finds k) ↔
      isComposePreset settings.casing data.deployPreset = false := by
  rw [lifecycleTarget]
  cases isComposePreset settings.casing data.deployPreset with
  | true =>
      rw [if_pos rfl]
      refine iff_of_false (fun hfinds => ?_) Bool.noConfusion
      have hstarted := (started_iff hcalls hnothing).mpr ⟨hheld, hname⟩
      have hsome : k.project = some _ := ((hfinds k).mp hstarted).2
      cases hproject.symm.trans hsome
  | false =>
      rw [if_neg Bool.false_ne_true]
      refine iff_of_true (fun k => ?_) rfl
      exact started_iff hcalls hnothing

/-- The container `app`, which no compose project has. -/
def appContainer : KnownContainer := ⟨0, js "app", none, none⟩

def composeFilesOfApp : List JsString :=
  [js "/data/build/app/docker-compose.yml", js "/data/build/app/docker-compose.yaml"]

/-- `docker inspect` of the container `app`. -/
def appSample (running : Bool) : JsString :=
  js "[\x7b\"Name\":\"/app\",\"State\":\x7b\"ExitCode\":0,\"Status\":\"" ++
    (if running then js "running" else js "created") ++ js "\"\x7d\x7d]"

def refusal {α : Type} : Except JsError α := .error (.error (js "no such container"))

/-- What a docker answers that has the container `app`, running or not, or nothing.
The clones bring no compose file. -/
def appReply : (c : Call) → Option Bool → c.Reply
  | .existsSync path, _ => decide (path ∉ composeFilesOfApp)
  | .inspectContainer name, w => if name = js "app" then w.elim refusal .ok else refusal
  | .createContainer spec, w => if spec.name = js "app" ∧ w = none then .ok () else refusal
  | .startContainer name, w => if name = js "app" ∧ w ≠ none then .ok () else refusal
  | .stopContainer name, w => if name = js "app" ∧ w ≠ none then .ok () else refusal
  | .removeContainer name, w => if name = js "app" ∧ w ≠ none then .ok () else refusal
  | .runSync args _, w =>
      if args = [js "inspect", js "app"] then
        w.elim ⟨some 1, [], []⟩ fun running => ⟨some 0, appSample running, []⟩
      else ⟨some 0, [], []⟩
  | c, _ => willingAnswer c

/-- Whether the container `app` is there afterwards, and runs. -/
def appNext : Call → Option Bool → Option Bool
  | .createContainer spec, w => if spec.name = js "app" ∧ w = none then some false else w
  | .startContainer name, w => if name = js "app" then w.map fun _ => true else w
  | .stopContainer name, w => if name = js "app" then w.map fun _ => false else w
  | .removeContainer name, w => if name = js "app" then none else w
  | _, w => w

def appHolds (w : Option Bool) (k : KnownContainer) : Prop := w ≠ none ∧ k = appContainer

theorem appHolds_added (files : JsString → List JsString) (c : Call) (w : Option Bool)
    (k : KnownContainer) (h : appHolds (appNext c w) k) : appHolds w k ∨ Brings files c k := by
  obtain ⟨hsome, rfl⟩ := h
  cases c with
  | createContainer spec =>
      by_cases hname : spec.name = js "app"
      · exact .inr ⟨hname.symm, rfl⟩
      · refine .inl ⟨?_, rfl⟩
        simpa [appNext, hname] using hsome
  | startContainer name => exact .inl ⟨fun hw => hsome (by simp [appNext, hw]), rfl⟩
  | stopContainer name => exact .inl ⟨fun hw => hsome (by simp [appNext, hw]), rfl⟩
  | removeContainer name => exact .inl ⟨fun hw => hsome (by simp [appNext, hw]), rfl⟩
  | _ => exact .inl ⟨hsome, rfl⟩

theorem appHolds_kept (files : JsString → List JsString) (c : Call) (w : Option Bool)
    (k : KnownContainer) (h : appHolds w k) : appHolds (appNext c w) k ∨ Takes files c k := by
  obtain ⟨hsome, rfl⟩ := h
  cases c with
  | createContainer spec => exact .inl ⟨by simp [appNext, hsome], rfl⟩
  | startContainer name => exact .inl ⟨by simp only [appNext]; split_ifs <;> simp [hsome], rfl⟩
  | stopContainer name => exact .inl ⟨by simp only [appNext]; split_ifs <;> simp [hsome], rfl⟩
  | removeContainer name =>
      by_cases hname : name = js "app"
      · exact .inr hname.symm
      · exact .inl ⟨by simp [appNext, hname, hsome], rfl⟩
  | _ => exact .inl ⟨hsome, rfl⟩

def appDocker : Dockerd (Option Bool) where
  host c w := (appReply c w, appNext c w)
  holds := appHolds
  runs w k := w = some true ∧ k = appContainer
  services _ _ := []
  held_of_runs w k h := ⟨fun hw => (nomatch hw.symm.trans h.1), h.2⟩
  added c w k h := appHolds_added _ c w k h
  kept c w k h := appHolds_kept _ c w k h
  spared _ _ _ := rfl
  created spec w h := by
    by_cases hname : spec.name = js "app" ∧ w = none
    · exact ⟨appContainer, hname.1.symm, rfl, by simp [appNext, hname, appHolds]⟩
    · simp [appReply, hname, refusal] at h
  removed name w _ k hname hheld := by
    obtain ⟨hsome, rfl⟩ := hheld
    exact hsome (if_pos hname.symm)
  refused name w e h k hheld := by
    by_cases hname : name = js "app"
    · have haccepts : name = js "app" ∧ w ≠ none := ⟨hname, hheld.1⟩
      simp [appReply, haccepts] at h
    · exact ⟨by simpa [appNext, hname] using hheld.1, hheld.2⟩
  takenDown project deleteScope cwd w _ k hproject hheld := by
    obtain ⟨-, rfl⟩ := hheld
    cases hproject

/-- The service `app`, deployed with this preset. -/
def appWith (deployPreset : JsString) : DeployCommand where
  serviceIndex := 7
  sourceUrl := .one (js "https://example.com/app.git")
  serviceName := js "app"
  serviceVersion := js "1"
  servicePort := Number.ofInt 80
  deployPreset := deployPreset

/-- Before the deployment there is no container. -/
def empty : Session (Option Bool) := ⟨none, {}, []⟩

/-- Behind the deployment. -/
def behindDeployment (deployPreset : JsString) : Session (Option Bool) :=
  (empty.run appDocker.host (deployment hostSettings (appWith deployPreset))).2

/-- The deployment returns true, and the container runs. -/
structure Deployed (deployPreset : JsString) : Prop where
  succeeds : (empty.run appDocker.host (deployment hostSettings (appWith deployPreset))).1 =
    .ok true
  runs : (behindDeployment deployPreset).world = some true

theorem deployed_app {deployPreset : JsString}
    (h : deployPreset ∈ [js "DOCKERFILE", js "PRESET_NEST"]) : Deployed deployPreset := by
  have hall : ∀ deployPreset ∈ [js "DOCKERFILE", js "PRESET_NEST"],
      (empty.run appDocker.host (deployment hostSettings (appWith deployPreset))).1.toOption =
        some true ∧ (behindDeployment deployPreset).world = some true := by
    decide +kernel
  obtain ⟨hok, hruns⟩ := hall deployPreset h
  refine ⟨?_, hruns⟩
  cases hresult : (empty.run appDocker.host (deployment hostSettings (appWith deployPreset))).1 with
  | ok b =>
      rw [hresult] at hok
      exact congrArg Except.ok (Option.some.inj hok)
  | error e =>
      rw [hresult] at hok
      cases hok

/-- The columns of `docker inspect` that are read of a container without a health
check. -/
def inspectColumns (row : JsValue) :
    List (Option JsString) × Option Number × Option (Option Health) :=
  match row.member (js "State") with
  | .ok state => ([stringMember row (js "Name"), stringMember state (js "Status")],
      numberMember state (js "ExitCode"),
      match state.member (js "Health") with
      | .ok .undefined => some none
      | _ => none)
  | .error _ => ([], none, none)

theorem inspectRow_of_columns (c : Container) (row : JsValue)
    (h : ([some (47 :: c.name), some c.state.text], some (Number.ofInt c.exitCode),
      some c.health) = inspectColumns row) : InspectRow c row := by
  unfold inspectColumns at h
  cases hstate : row.member (js "State") with
  | error e =>
      rw [hstate] at h
      cases h
  | ok state =>
      rw [hstate] at h
      simp only [Prod.mk.injEq, List.cons.injEq, and_true] at h
      obtain ⟨⟨hname, hstatus⟩, hcode, hhealth⟩ := h
      refine ⟨member_of_string hname.symm, state, hstate, member_of_string hstatus.symm,
        member_of_number hcode.symm, ?_⟩
      split at hhealth
      · rw [Option.some.inj hhealth]
        assumption
      · cases hhealth

/-- The container `app`, as docker shows it. -/
def runningApp : Container where
  name := js "app"
  state := .running
  exitCode := 0
  health := none
  named := js_ne_nil (by decide)

theorem listsApp : Docker.Lists InspectRow [runningApp] ⟨some 0, appSample true, []⟩ := by
  apply lists_of_columns inspectRow_of_columns
  decide +kernel

theorem namesAddressed_dockerfile :
    NamesAddressed appDocker hostSettings (appWith (js "DOCKERFILE")) (some true) := by
  have hname : (appWith (js "DOCKERFILE")).dockerName hostSettings = js "app" := by
    decide +kernel
  have hpreset : isComposePreset asciiCase (js "DOCKERFILE") = false := by decide
  have hreply : appDocker.host (.runSync [js "inspect", js "app"] none) (some true) =
      (⟨some 0, appSample true, []⟩, some true) := rfl
  refine ⟨[runningApp], ?_, ?_, ?_⟩
  · rw [hname]
    exact .dockerfile _ hpreset hreply fun _ => listsApp
  · rw [QueryAnswered, hname]
    exact congrArg (fun reply => reply.1.status) hreply
  · rintro k ⟨-, rfl⟩ -
    exact ⟨runningApp, List.mem_cons_self, rfl⟩

end OpticsAgent.Tunnel
