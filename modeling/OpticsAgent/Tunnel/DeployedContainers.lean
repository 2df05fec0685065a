import Mathlib
import OpticsAgent.Tunnel.Dockerd

/-!
What a deployment leaves docker with. Until the sources are there it removes at
most the container of its own name. Then it goes one of two ways, and ends with
the call that brings the project up or starts the one container, having started
nothing before.
-/

namespace OpticsAgent.Tunnel

open OpticsAgent.Ecma OpticsAgent.Node OpticsAgent.Lib OpticsAgent.Docker OpticsAgent.Docker.Agent
open OpticsAgent.Service

variable {W : Type}

/-! ## The removal of the container -/

/-- Asked to remove the container of this name, docker does. -/
def removesContainer (host : Host W) (name : JsString) (w : W) : Bool :=
  let inspected := host (.inspectContainer name) w
  match (inspected.1 : Except JsError Bool) with
  | .error _ => false
  | .ok false => (Call.removeContainer name).succeeds (host (.removeContainer name) inspected.2).1
  | .ok true =>
      let stopped := host (.stopContainer name) inspected.2
      (Call.stopContainer name).succeeds stopped.1 &&
        (Call.removeContainer name).succeeds (host (.removeContainer name) stopped.2).1

section Removal

variable {host : Host W} {name : JsString} {w v : W}

theorem removesContainer_unseen {e : JsError}
    (h : host (.inspectContainer name) w = (.error e, v)) :
    removesContainer host name w = false := by
  rw [removesContainer, h]

theorem removesContainer_stopped (h : host (.inspectContainer name) w = (.ok false, v)) :
    removesContainer host name w =
      (Call.removeContainer name).succeeds (host (.removeContainer name) v).1 := by
  rw [removesContainer, h]

theorem removesContainer_running (h : host (.inspectContainer name) w = (.ok true, v)) :
    removesContainer host name w =
      ((Call.stopContainer name).succeeds (host (.stopContainer name) v).1 &&
        (Call.removeContainer name).succeeds
          (host (.removeContainer name) (host (.stopContainer name) v).2).1) := by
  rw [removesContainer, h]

end Removal

namespace Dockerd

section Deployment

variable (docker : Dockerd W) (settings : Settings) (data : DeployCommand)
  (services : List JsString)

/-- A container of the project of a service its compose file does not have. -/
def Orphan (k : KnownContainer) : Prop :=
  k.project = some (data.dockerName settings) ∧ ¬ k.Serves services

/-- An orphan of an earlier deployment that this one leaves in its place. -/
def Leftover (w : W) (k : KnownContainer) : Prop :=
  Orphan settings data services k ∧ docker.holds w k ∧
    (k.name = data.dockerName settings →
      removesContainer docker.host (data.dockerName settings) w = false)

/-- Of the orphans there were at `w`, those at `v` are the leftovers. -/
def Keeps (w v : W) : Prop :=
  ∀ k, Orphan settings data services k →
    (docker.holds v k ↔ docker.Leftover settings data services w k)

/-- What holds of docker, from `w` on, until the sources are there. -/
def Stage (w : W) : Due → W → Prop
  | .building, v | .inspect, v => v = w
  | .stop, v => docker.host (.inspectContainer (data.dockerName settings)) w = (.ok true, v)
  | .remove, v =>
      removesContainer docker.host (data.dockerName settings) w =
        (Call.removeContainer (data.dockerName settings)).succeeds
          (docker.host (.removeContainer (data.dockerName settings)) v).1 ∧
      ∀ k, Orphan settings data services k → (docker.holds v k ↔ docker.holds w k)
  | .clear, v | .helper, v | .spread, v | .parent .., v | .clone .., v | .find, v | .enter, v
  | .permit, v | .list, v | .permitEach .., v | .composeYml, v =>
      docker.Keeps settings data services w v
  | _, _ => False

/-- The sources are there, or will not be. -/
def Late : Due → Prop
  | .marker | .newMarker | .markerTold | .showing .greeting _ | .building | .inspect | .stop
  | .remove | .clear | .helper | .spread | .parent .. | .clone .. | .find | .enter | .permit
  | .list | .permitEach .. | .composeYml => False
  | _ => True

/-- What ties what is due to docker and to the calls made since `s`, until the
sources are there. -/
inductive Preparing (s : Session W) (due : Due) (u : Session W) : Prop
  | late (h : Late due)
  | early (more : List (Call × Bool))
      (hstage : docker.Stage settings data services s.world due u.world)
      (hcalls : u.calls = s.calls ++ more)
      (hnothing : ∀ d ∈ more, ∀ files k, ¬ Starts files d.1 k)

/-- What holds of docker when this is due on the way taken, by compose or with a
container of its own. -/
def OnWay (way : Due) (w : W) : Due → W → Prop
  | .env, v | .services, v | .override, v | .showing .expected _, v | .up, v =>
      way = .env ∧ docker.services v (data.contextDir settings) = services ∧
        docker.Keeps settings data services w v
  | .source, _ | .image _, _ | .starting, _ | .create, _ => way = .source
  | .start, v => way = .source ∧
      ∃ k, k.name = data.dockerName settings ∧ k.project = none ∧ docker.holds v k
  | _, _ => False

/-- The last call brought the project up, or started the container that had been
created. -/
def Launched (way : Due) (w : W) (c : Call) (v : W) : Prop :=
  (c = .run (composeUpArgs (data.dockerName settings)) (some (data.contextDir settings)) ∧
    way = .env ∧ docker.services v (data.contextDir settings) = services ∧
      docker.Keeps settings data services w v) ∨
  (c = .startContainer (data.dockerName settings) ∧ way = .source ∧
    ∃ k, k.name = data.dockerName settings ∧ k.project = none ∧ docker.holds v k)

/-- Nothing more is done that matters to the containers. -/
def Over : Due → Prop
  | .halted | .failed | .rejected | .status | .observed | .showing .looked .store
  | .showing .looked (.tell _) => True
  | _ => False

/-- What ties what is due to docker and to the calls made since `s`, when the way is
known. -/
inductive Deploying (way : Due) (s : Session W) (due : Due) (u : Session W) : Prop
  | ended (h : Over due)
  | launched (more : List (Call × Bool)) (c : Call)
      (hdue : due = .running ∨ due = .showing .looked .track)
      (hcalls : u.calls = s.calls ++ (more ++ [(c, true)]))
      (hnothing : ∀ d ∈ more, ∀ files k, ¬ Starts files d.1 k)
      (hlaunched : docker.Launched settings data services way s.world c u.world)
  | working (more : List (Call × Bool))
      (hway : docker.OnWay settings data services way s.world due u.world)
      (hcalls : u.calls = s.calls ++ more)
      (hnothing : ∀ d ∈ more, ∀ files k, ¬ Starts files d.1 k)

end Deployment

section Stages

variable {docker : Dockerd W} {settings : Settings} {data : DeployCommand}
  {services : List JsString} {w v : W} {due : Due}

-- The pipeline decides on texts; its branches are not to be evaluated.
attribute [local irreducible] leaves

/-- A call that brings no container and takes none. -/
def Bystands (c : Call) : Prop :=
  ∀ files k, ¬ Brings files c k ∧ ¬ Takes files c k

variable (docker) in
theorem holds_of_bystands {c : Call} (h : Bystands c) (k : KnownContainer) :
    docker.holds (docker.host c v).2 k ↔ docker.holds v k :=
  ⟨fun hheld => (docker.added c v k hheld).resolve_right (h _ k).1,
    fun hheld => (docker.kept c v k hheld).resolve_right (h _ k).2⟩

theorem Keeps.bystand {c : Call} (hkeeps : docker.Keeps settings data services w v)
    (h : Bystands c) : docker.Keeps settings data services w (docker.host c v).2 :=
  fun k horphan => (docker.holds_of_bystands h k).trans (hkeeps k horphan)

/-- A helper container is gone when its process has ended. -/
theorem bystands_run (more : List JsString) (cwd : Option JsString) :
    Bystands (.run (js "run" :: more) cwd) := by
  have hne : ∀ project (rest : List JsString), js "run" :: more ≠ js "compose" :: project :: rest :=
    fun project rest h => absurd (List.cons.inj h).1 (by decide)
  intro files k
  constructor
  · rintro ⟨project, hargs, -⟩
    exact hne _ _ hargs
  · rintro ⟨project, -, ⟨deleteScope, hargs⟩ | ⟨hargs, -⟩⟩
    · cases deleteScope with
      | service => exact hne _ _ hargs
      | containers => exact hne _ _ hargs
    · exact hne _ _ hargs

/-- What holds when the sources are still to come, or the sources are there. -/
def Onward (docker : Dockerd W) (settings : Settings) (data : DeployCommand)
    (services : List JsString) (w : W) (due : Due) (v : W) : Prop :=
  Late due ∨ docker.Stage settings data services w due v

theorem onward_ite {c : Prop} [Decidable c] (h : docker.Onward settings data services w due v) :
    docker.Onward settings data services w (if c then due else .halted) v := by
  split_ifs
  · exact h
  · exact .inl trivial

theorem onward_context (h : docker.Keeps settings data services w v) :
    docker.Onward settings data services w (.context settings data) v := by
  unfold Due.context
  split_ifs
  · exact .inr h
  · exact .inl trivial
  · exact .inr h

theorem onward_cloning (h : docker.Keeps settings data services w v) (begun : Bool)
    (checkouts : List Checkout) :
    docker.Onward settings data services w (.cloning settings data begun checkouts) v := by
  cases checkouts with
  | nil =>
      cases begun with
      | true => exact onward_context h
      | false => exact .inl trivial
  | cons checkout rest =>
      rw [Due.cloning_cons]
      split_ifs
      · exact .inl trivial
      · exact .inr h

theorem onward_sources (h : docker.Keeps settings data services w v) :
    docker.Onward settings data services w (.sources settings data) v := by
  unfold Due.sources
  split_ifs
  · exact onward_cloning h false _
  · exact .inr h

theorem onward_permitting (h : docker.Keeps settings data services w v) (files : List JsString) :
    docker.Onward settings data services w (.permitting files) v := by
  cases files with
  | nil => exact .inr h
  | cons file rest => exact .inr h

theorem late_chosen (found : Bool) : Late (.chosen settings data found) := by
  unfold Due.chosen
  dsimp only
  split_ifs <;> trivial

/-! ### The removal of what is there -/

theorem bystands_inspect (name : JsString) : Bystands (.inspectContainer name) :=
  fun _ _ => ⟨id, id⟩

theorem bystands_stop (name : JsString) : Bystands (.stopContainer name) :=
  fun _ _ => ⟨id, id⟩

/-- Nothing is removed. -/
theorem keeps_of_unremoved
    (hremoves : removesContainer docker.host (data.dockerName settings) w = false)
    (hsame : ∀ k, Orphan settings data services k → (docker.holds v k ↔ docker.holds w k)) :
    docker.Keeps settings data services w v :=
  fun k horphan => (hsame k horphan).trans
    ⟨fun hheld => ⟨horphan, hheld, fun _ => hremoves⟩, fun hleft => hleft.2.1⟩

theorem stage_inspect (hv : v = w) :
    docker.Stage settings data services w
      (Due.inspect.after settings data (.inspectContainer (data.dockerName settings))
        (docker.host (.inspectContainer (data.dockerName settings)) v).1)
      (docker.host (.inspectContainer (data.dockerName settings)) v).2 := by
  subst hv
  have hsame : ∀ k, Orphan settings data services k →
      (docker.holds (docker.host (.inspectContainer (data.dockerName settings)) v).2 k ↔
        docker.holds v k) := fun k _ => docker.holds_of_bystands (bystands_inspect _) k
  cases hreply : docker.host (.inspectContainer (data.dockerName settings)) v with
  | mk reply v' =>
      rw [hreply] at hsame
      rcases reply with e | (- | -)
      · exact keeps_of_unremoved (removesContainer_unseen hreply) hsame
      · exact ⟨removesContainer_stopped hreply, hsame⟩
      · exact hreply

theorem stage_stop
    (hv : docker.host (.inspectContainer (data.dockerName settings)) w = (.ok true, v)) :
    docker.Stage settings data services w
      (Due.stop.after settings data (.stopContainer (data.dockerName settings))
        (docker.host (.stopContainer (data.dockerName settings)) v).1)
      (docker.host (.stopContainer (data.dockerName settings)) v).2 := by
  have hremoves := removesContainer_running hv
  have hsame : ∀ k, Orphan settings data services k →
      (docker.holds (docker.host (.stopContainer (data.dockerName settings)) v).2 k ↔
        docker.holds w k) := by
    intro k _
    refine (docker.holds_of_bystands (bystands_stop _) k).trans ?_
    have hinspected := docker.holds_of_bystands (v := w)
      (bystands_inspect (data.dockerName settings)) k
    rwa [hv] at hinspected
  cases hreply : docker.host (.stopContainer (data.dockerName settings)) v with
  | mk reply v' =>
      rw [hreply] at hremoves hsame
      cases reply with
      | ok _ => exact ⟨hremoves, hsame⟩
      | error e => exact keeps_of_unremoved hremoves hsame

theorem keeps_removed
    (hremoves : removesContainer docker.host (data.dockerName settings) w =
      (Call.removeContainer (data.dockerName settings)).succeeds
        (docker.host (.removeContainer (data.dockerName settings)) v).1)
    (hsame : ∀ k, Orphan settings data services k → (docker.holds v k ↔ docker.holds w k)) :
    docker.Keeps settings data services w
      (docker.host (.removeContainer (data.dockerName settings)) v).2 := by
  have hnew : ∀ k, docker.holds (docker.host (.removeContainer (data.dockerName settings)) v).2 k →
      docker.holds v k := fun k hheld => (docker.added _ v k hheld).resolve_right id
  cases hreply : (docker.host (.removeContainer (data.dockerName settings)) v).1 with
  | error e =>
      rw [hreply] at hremoves
      refine keeps_of_unremoved hremoves fun k horphan => ?_
      refine Iff.trans ?_ (hsame k horphan)
      exact ⟨hnew k, docker.refused _ v e hreply k⟩
  | ok _ =>
      rw [hreply] at hremoves
      have hgone := docker.removed _ v hreply
      intro k horphan
      constructor
      · intro hheld
        refine ⟨horphan, (hsame k horphan).mp (hnew k hheld), fun hname => ?_⟩
        exact absurd hheld (hgone k hname)
      · rintro ⟨-, hheld, hunremoved⟩
        refine (docker.kept _ v k ((hsame k horphan).mpr hheld)).resolve_right fun hname => ?_
        cases hremoves.symm.trans (hunremoved hname)

/-! ### The calls until the sources are there -/

theorem startsNothing_run {files : JsString → List JsString} (more : List JsString)
    (cwd : Option JsString) (k : KnownContainer) :
    ¬ Starts files (.run (js "run" :: more) cwd) k := by
  rintro ⟨project, hargs, -⟩
  exact absurd (List.cons.inj hargs).1 (by decide)

theorem startsNothing_snoc {more : List (Call × Bool)} {c : Call} (succeeded : Bool)
    (hmore : ∀ d ∈ more, ∀ files k, ¬ Starts files d.1 k)
    (hc : ∀ files k, ¬ Starts files c k) :
    ∀ d ∈ more ++ [(c, succeeded)], ∀ files k, ¬ Starts files d.1 k :=
  List.forall_mem_append.mpr ⟨hmore, (List.forall_mem_singleton (a := (c, succeeded))).mpr hc⟩

/-- A call before the start of the containers, and where it leads. -/
structure Advances (docker : Dockerd W) (settings : Settings) (data : DeployCommand)
    (services : List JsString) (w v : W) (due : Due) (c : Call) : Prop where
  nothing : ∀ files k, ¬ Starts files c k
  onward : docker.Onward settings data services w (due.after settings data c (docker.host c v).1)
    (docker.host c v).2

/-- Calls that are about files and images, or look. -/
def aside : Call → Bool
  | .run .. | .createContainer _ | .startContainer _ | .removeContainer _ => false
  | _ => true

theorem bystands_of_aside {c : Call} (h : aside c = true) : Bystands c := by
  cases c with
  | run args cwd => cases h
  | createContainer spec => cases h
  | startContainer name => cases h
  | removeContainer name => cases h
  | _ => exact fun _ _ => ⟨id, id⟩

theorem startsNothing_aside {c : Call} (h : aside c = true) (files : JsString → List JsString)
    (k : KnownContainer) : ¬ Starts files c k := by
  cases c with
  | run args cwd => cases h
  | startContainer name => cases h
  | _ => exact id

theorem advances_aside {c : Call} (haside : aside c = true)
    (hkeeps : docker.Keeps settings data services w v)
    (honward : ∀ v', docker.Keeps settings data services w v' →
      docker.Onward settings data services w (due.after settings data c (docker.host c v).1) v') :
    docker.Advances settings data services w v due c :=
  ⟨startsNothing_aside haside, honward _ (hkeeps.bystand (bystands_of_aside haside))⟩

theorem advances_workspace {c : Call} (hmounting : Mounting due)
    (hstage : ∀ v', docker.Keeps settings data services w v' →
      docker.Stage settings data services w due v')
    (hkeeps : docker.Keeps settings data services w v) (h : WorkspaceCall settings c) :
    docker.Advances settings data services w v due c := by
  have haside : aside c = true := by
    cases h with
    | runtime => rfl
    | root => rfl
  refine advances_aside haside hkeeps fun v' hkept => ?_
  rw [after_of_mounting hmounting h]
  exact onward_ite (.inr (hstage _ hkept))

theorem advances_of_calls {c : Call} (hstage : docker.Stage settings data services w due v)
    (hcalls : due.calls settings data c) : docker.Advances settings data services w v due c := by
  cases due with
  | inspect =>
      obtain rfl : c = .inspectContainer _ := hcalls
      exact ⟨fun _ _ => id, .inr (stage_inspect hstage)⟩
  | stop =>
      obtain rfl : c = .stopContainer _ := hcalls
      exact ⟨fun _ _ => id, .inr (stage_stop hstage)⟩
  | remove =>
      obtain rfl : c = .removeContainer _ := hcalls
      exact ⟨fun _ _ => id, .inr (keeps_removed hstage.1 hstage.2)⟩
  | clear =>
      obtain rfl : c = .rmSync _ := hcalls
      refine advances_aside rfl hstage fun v' hkeeps => ?_
      rw [Due.after_clear]
      split_ifs
      · exact onward_sources hkeeps
      · exact .inl trivial
      · exact .inr hkeeps
  | helper =>
      rcases hcalls with hspace | ⟨mount, -, rfl⟩
      · exact advances_workspace trivial (fun _ h => h) hstage hspace
      · exact advances_aside rfl hstage fun v' hkeeps => onward_ite (onward_sources hkeeps)
  | spread =>
      obtain rfl : c = .mkdirSync _ := hcalls
      exact advances_aside rfl hstage fun v' hkeeps => onward_ite (onward_cloning hkeeps false _)
  | parent begun checkout rest =>
      obtain rfl : c = .mkdirSync _ := hcalls
      exact advances_aside rfl hstage fun v' hkeeps => onward_ite (.inr hkeeps)
  | clone begun checkout rest =>
      rcases hcalls with hspace | hclone
      · exact advances_workspace trivial (fun _ h => h) hstage hspace
      · obtain ⟨userArgs, mount, -, -⟩ := hclone
        refine ⟨fun _ => startsNothing_run _ none, ?_⟩
        rw [Due.after_clone]
        apply onward_ite
        exact onward_cloning (Keeps.bystand hstage (bystands_run _ none)) true rest
  | find =>
      obtain rfl : c = .existsSync _ := hcalls
      exact advances_aside rfl hstage fun v' hkeeps => onward_ite (.inr hkeeps)
  | enter =>
      obtain rfl : c = .isDirectory _ := hcalls
      exact advances_aside rfl hstage fun v' hkeeps => onward_ite (.inr hkeeps)
  | permit =>
      obtain rfl : c = .chmodSync _ := hcalls
      exact advances_aside rfl hstage fun v' hkeeps => onward_ite (.inr hkeeps)
  | list =>
      obtain rfl : c = .readdirSync _ := hcalls
      refine advances_aside rfl hstage fun v' hkeeps => ?_
      cases (docker.host (.readdirSync (data.contextDir settings)) v).1 with
      | ok files => exact onward_permitting hkeeps files
      | error e => exact .inl trivial
  | permitEach file rest =>
      obtain rfl : c = .chmodSync _ := hcalls
      exact advances_aside rfl hstage fun v' hkeeps => onward_permitting hkeeps rest
  | composeYml =>
      obtain rfl : c = .existsSync _ := hcalls
      refine advances_aside rfl hstage fun v' _ => .inl ?_
      cases (docker.host (.existsSync (Path.join [data.contextDir settings,
        js "docker-compose.yml"])) v).1 with
      | true => exact late_chosen true
      | false => trivial
  | building => exact hcalls.elim
  | _ => exact hstage.elim

theorem late_ite {c : Prop} [Decidable c] {other : Due} (h : Late due) (hother : Late other) :
    Late (if c then due else other) := by
  split_ifs
  · exact h
  · exact hother

/-- Behind the sources nothing leads back. -/
theorem late_after {c : Call} (h : Late due) (hcalls : due.calls settings data c)
    (reply : c.Reply) : Late (due.after settings data c reply) := by
  cases due with
  | composeYaml => exact late_chosen _
  | services => exact late_ite (late_ite trivial trivial) trivial
  | source =>
      change Late (.read (c.entries reply))
      cases c.entries reply with
      | none => trivial
      | some src => trivial
  | env | override | up | image | create | start => exact late_ite trivial trivial
  | showing occasion part =>
      cases occasion with
      | greeting => exact h.elim
      | expected => exact hcalls.elim
      | looked => cases part <;> trivial
  | running | status | observed | starting | halted | failed | rejected => exact hcalls.elim
  | _ => exact h.elim

end Stages

/-! ### Run by run -/

/-- Where an operation on the agent's own side leads. -/
inductive Follows : Due → Due → Prop
  | same {due : Due} : Follows due due
  | marked {due due' : Due} (h : due = .marker ∨ due = .newMarker ∨ due = .markerTold) :
      Follows due due'
  | building : Follows .building .inspect
  | starting : Follows .starting .create
  | running : Follows .running (.showing .looked .track)
  | failed : Follows .halted .failed
  | observed : Follows .status .observed
  | tracked (occasion : Occasion) :
      Follows (.showing occasion .track) (.showing occasion .store)
  | stored (occasion : Occasion) (snapshot : ContainerSnapshot) :
      Follows (.showing occasion .store) (.showing occasion (.tell snapshot))
  | told (occasion : Occasion) (snapshot : ContainerSnapshot) :
      Follows (.showing occasion (.tell snapshot))
        (Due.told (.showing occasion (.tell snapshot)))

section Steps

variable {docker : Dockerd W} {settings : Settings} {data : DeployCommand}
  {services : List JsString} {due due' way : Due} {w v : W}

theorem follows_of_report {told : ServiceStatus} (h : due.report told = some due') :
    Follows due due' := by
  unfold Due.report at h
  split at h <;> cases h
  · exact .building
  · exact .starting
  · exact .running
  · exact .failed
  · exact .observed

theorem follows_of_admits {op : BookOp} (h : (pipeline settings data).admits due (.books op))
    (reply : op.Reply) : Follows due ((pipeline settings data).next due (.books op) reply) := by
  match op with
  | .now | .turn | .sendUpdate .. => exact .same
  | .emit (.serviceLog ..) => exact .same
  | .emit (.serviceStatus j status) =>
      obtain ⟨due', hreport⟩ := Option.isSome_iff_exists.mp h.2
      refine follows_of_report (?_ : due.report status = some ((due.report status).getD due))
      rw [hreport]
      rfl
  | .emit (.containerStatus snapshot) =>
      obtain ⟨-, occasion, rfl⟩ := h
      exact .told occasion snapshot
  | .emit (.serviceLogMarkers ..) => exact .marked (.inr (.inr h.2))
  | .findMarker .. => exact .marked (.inl h.2.2)
  | .createMarker _ => exact .marked (.inr (.inl h.2))
  | .track .. =>
      obtain ⟨-, -, occasion, rfl⟩ := h
      exact .tracked occasion
  | .storeSnapshot snapshot =>
      obtain ⟨-, occasion, rfl⟩ := h
      exact .stored occasion snapshot

theorem late_follows (h : Late due) (hfollows : Follows due due') : Late due' := by
  cases hfollows with
  | same => exact h
  | marked hmarker => rcases hmarker with rfl | rfl | rfl <;> exact h.elim
  | building => exact h.elim
  | starting | running | failed | observed => trivial
  | tracked occasion => cases occasion <;> exact h
  | stored occasion snapshot => cases occasion <;> exact h
  | told occasion snapshot =>
      cases occasion with
      | greeting => exact h.elim
      | expected => trivial
      | looked => trivial

theorem stage_follows (h : docker.Stage settings data services w due v)
    (hfollows : Follows due due') : docker.Stage settings data services w due' v := by
  cases hfollows with
  | same => exact h
  | marked hmarker => rcases hmarker with rfl | rfl | rfl <;> exact h.elim
  | building => exact h
  | starting | running | failed | observed => exact h.elim
  | tracked occasion => exact h.elim
  | stored occasion snapshot => exact h.elim
  | told occasion snapshot => exact h.elim

theorem preparing_step {s u : Session W} {op : Op}
    (hadmits : (pipeline settings data).admits due op)
    (h : docker.Preparing settings data services s due u) :
    docker.Preparing settings data services s
      ((pipeline settings data).next due op (u.perform docker.host op).1)
      (u.perform docker.host op).2 := by
  cases op with
  | books op =>
      have hfollows := follows_of_admits hadmits (u.perform docker.host (.books op)).1
      cases h with
      | late hlate => exact .late (late_follows hlate hfollows)
      | early more hstage hcalls hnothing =>
          exact .early more (stage_follows hstage hfollows) hcalls hnothing
  | call c =>
      cases h with
      | late hlate => exact .late (late_after hlate hadmits _)
      | early more hstage hcalls hnothing =>
          obtain ⟨hstarts, honward⟩ := advances_of_calls hstage hadmits
          rcases honward with hlate | hstage
          · exact .late hlate
          · have hcalled := calls_perform docker.host c hcalls
            exact .early _ hstage hcalled (startsNothing_snoc _ hnothing hstarts)

/-! ### On the way taken -/

/-- The project is to be brought up. -/
def WithCompose (docker : Dockerd W) (settings : Settings) (data : DeployCommand)
    (services : List JsString) (way : Due) (w v : W) : Prop :=
  way = .env ∧ docker.services v (data.contextDir settings) = services ∧
    docker.Keeps settings data services w v

theorem WithCompose.spared {c : Call} (h : docker.WithCompose settings data services way w v)
    (haside : aside c = true) (hspares : SparesServices c) :
    docker.WithCompose settings data services way w (docker.host c v).2 := by
  obtain ⟨hway, hservices, hkeeps⟩ := h
  refine ⟨hway, ?_, hkeeps.bystand (bystands_of_aside haside)⟩
  rw [docker.spared c v hspares, hservices]

/-- The work is over, or goes on. -/
def Proceeds (docker : Dockerd W) (settings : Settings) (data : DeployCommand)
    (services : List JsString) (way : Due) (w : W) (due : Due) (v : W) : Prop :=
  Over due ∨ docker.OnWay settings data services way w due v

theorem proceeds_ite {c : Prop} [Decidable c]
    (h : docker.Proceeds settings data services way w due v) :
    docker.Proceeds settings data services way w (if c then due else .halted) v := by
  split_ifs
  · exact h
  · exact .inl trivial

theorem onWay_calls {c : Call} (h : docker.OnWay settings data services way w due v)
    (hcalls : due.calls settings data c) (hup : due ≠ .up) (hstart : due ≠ .start) :
    (∀ files k, ¬ Starts files c k) ∧ docker.Proceeds settings data services way w
      (due.after settings data c (docker.host c v).1) (docker.host c v).2 := by
  cases due with
  | env =>
      obtain ⟨content, rfl⟩ := hcalls
      have hspares : SparesServices (.writeFileSync
          (Path.join [data.contextDir settings, js ".env"]) content) := ⟨_, .inl rfl⟩
      exact ⟨startsNothing_aside rfl, proceeds_ite (.inr (WithCompose.spared h rfl hspares))⟩
  | services =>
      obtain rfl : c = .runSync _ _ := hcalls
      refine ⟨startsNothing_aside rfl, ?_⟩
      rw [Due.after_services]
      split_ifs
      · exact .inl trivial
      · exact .inr (WithCompose.spared h rfl rfl)
      · exact .inl trivial
  | override =>
      obtain ⟨content, rfl⟩ := hcalls
      have hspares : SparesServices (.writeFileSync
          (Path.join [data.contextDir settings, js "docker-compose.override.yml"]) content) :=
        ⟨_, .inr rfl⟩
      exact ⟨startsNothing_aside rfl, proceeds_ite (.inr (WithCompose.spared h rfl hspares))⟩
  | source =>
      obtain rfl : c = .readdirSync _ := hcalls
      refine ⟨startsNothing_aside rfl, ?_⟩
      cases hreply : (docker.host (.readdirSync (data.contextDir settings)) v).1 with
      | ok src => exact .inr h
      | error e => exact .inl trivial
  | image src =>
      obtain rfl : c = .buildImage _ _ _ := hcalls
      exact ⟨startsNothing_aside rfl, proceeds_ite (.inr h)⟩
  | create =>
      obtain rfl : c = .createContainer _ := hcalls
      refine ⟨fun _ _ => id, ?_⟩
      cases hreply : (docker.host (.createContainer (containerSpec settings
        (data.dockerName settings) data.serviceVersion (resolvePortMappings data) data.env)) v).1
          with
      | ok _ =>
          obtain ⟨k, hname, hproject, hheld⟩ := docker.created _ v hreply
          exact .inr ⟨h, k, hname.trans dockerName_idem, hproject, hheld⟩
      | error e => exact .inl trivial
  | up => exact absurd rfl hup
  | start => exact absurd rfl hstart
  | showing occasion part =>
      cases occasion with
      | expected => exact hcalls.elim
      | greeting => exact h.elim
      | looked => exact h.elim
  | starting => exact hcalls.elim
  | _ => exact h.elim

/-- Bringing a project up leaves the orphans in it. -/
theorem WithCompose.up (h : docker.WithCompose settings data services way w v) :
    docker.WithCompose settings data services way w
      (docker.host (.run (composeUpArgs (data.dockerName settings))
        (some (data.contextDir settings))) v).2 := by
  obtain ⟨hway, hservices, hkeeps⟩ := h
  have hdown : ∀ project deleteScope,
      composeUpArgs (data.dockerName settings) ≠ composeDownArgs project deleteScope := by
    intro project deleteScope h
    have hverb := congrArg (fun args => args[3]?) h
    cases deleteScope with
    | service => exact absurd (Option.some.inj hverb) (by decide)
    | containers => exact absurd (Option.some.inj hverb) (by decide)
  refine ⟨hway, ?_, fun k horphan => ?_⟩
  · have hspares : SparesServices (.run (composeUpArgs (data.dockerName settings))
        (some (data.contextDir settings))) := ⟨_, rfl⟩
    rw [docker.spared _ v hspares, hservices]
  · refine Iff.trans ⟨fun hheld => ?_, fun hheld => ?_⟩ (hkeeps k horphan)
    · refine (docker.added _ v k hheld).resolve_right ?_
      rintro ⟨project, -, -, hserves⟩
      exact horphan.2 (hservices ▸ hserves)
    · refine (docker.kept _ v k hheld).resolve_right ?_
      rintro ⟨project, -, ⟨deleteScope, hargs⟩ | ⟨-, hserves⟩⟩
      · exact hdown project deleteScope hargs
      · exact horphan.2 (hservices ▸ hserves)

/-- The containers are brought up, or started. -/
theorem launches {c : Call} (h : docker.OnWay settings data services way w due v)
    (hcalls : due.calls settings data c) (hdue : due = .up ∨ due = .start) :
    (due.after settings data c (docker.host c v).1 =
        if c.succeeds (docker.host c v).1 then .running else .halted) ∧
      docker.Launched settings data services way w c (docker.host c v).2 := by
  rcases hdue with rfl | rfl
  · obtain rfl : c = .run _ _ := hcalls
    exact ⟨rfl, .inl ⟨rfl, WithCompose.up h⟩⟩
  · obtain rfl : c = .startContainer _ := hcalls
    obtain ⟨hway, k, hname, hproject, hheld⟩ := h
    have hbystands : Bystands (.startContainer (data.dockerName settings)) := fun _ _ => ⟨id, id⟩
    have hthere := (docker.holds_of_bystands hbystands k).mpr hheld
    exact ⟨rfl, .inr ⟨rfl, hway, k, hname, hproject, hthere⟩⟩

/-- Behind the start nothing is asked of docker but what the last look asks. -/
theorem showing_of_calls {c : Call} (hlate : Over due ∨ due = .running ∨
    due = .showing .looked .track) (hcalls : due.calls settings data c) :
    due = .showing .looked .store := by
  cases due with
  | showing occasion part =>
      cases part with
      | store =>
          cases occasion with
          | looked => rfl
          | greeting => exact hcalls.elim
          | expected => exact hcalls.elim
      | track => cases occasion <;> exact hcalls.elim
      | tell snapshot => cases occasion <;> exact hcalls.elim
  | running | status | observed | halted | failed | rejected => exact hcalls.elim
  | _ => rcases hlate with h | h | h <;> cases h

theorem over_follows (h : Over due) (hfollows : Follows due due') : Over due' := by
  cases hfollows with
  | same => exact h
  | marked hmarker => rcases hmarker with rfl | rfl | rfl <;> exact h.elim
  | building | starting | running => exact h.elim
  | failed | observed => trivial
  | tracked occasion => cases occasion <;> exact h.elim
  | stored occasion snapshot =>
      cases occasion with
      | looked => trivial
      | _ => exact h.elim
  | told occasion snapshot =>
      cases occasion with
      | looked => trivial
      | _ => exact h.elim

theorem onWay_follows (h : docker.OnWay settings data services way w due v)
    (hfollows : Follows due due') : docker.OnWay settings data services way w due' v := by
  cases hfollows with
  | same => exact h
  | marked hmarker => rcases hmarker with rfl | rfl | rfl <;> exact h.elim
  | starting => exact h
  | building | running | failed | observed => exact h.elim
  | tracked occasion => cases occasion <;> exact h
  | stored occasion snapshot => cases occasion <;> exact h
  | told occasion snapshot =>
      cases occasion with
      | greeting => exact h.elim
      | expected => exact h
      | looked => exact h.elim

theorem launched_follows (hdue : due = .running ∨ due = .showing .looked .track)
    (hfollows : Follows due due') :
    (due' = .running ∨ due' = .showing .looked .track) ∨ Over due' := by
  cases hfollows with
  | same => exact .inl hdue
  | marked hmarker =>
      rcases hdue with rfl | rfl
      · rcases hmarker with h | h | h <;> cases h
      · rcases hmarker with h | h | h <;> cases h
  | building | starting => rcases hdue with h | h <;> cases h
  | running => exact .inl (.inr rfl)
  | failed | observed => exact .inr trivial
  | tracked occasion =>
      rcases hdue with h | h
      · cases h
      · cases h
        exact .inr trivial
  | stored occasion snapshot => rcases hdue with h | h <;> cases h
  | told occasion snapshot => rcases hdue with h | h <;> cases h

theorem deploying_call {s u : Session W} {c : Call}
    (h : docker.Deploying settings data services way s due u)
    (hcalls : due.calls settings data c) :
    docker.Deploying settings data services way s
      (due.after settings data c (docker.host c u.world).1)
      (u.perform docker.host (.call c)).2 := by
  cases h with
  | ended hover =>
      obtain rfl := showing_of_calls (.inl hover) hcalls
      exact .ended trivial
  | launched more last hdue =>
      cases showing_of_calls (.inr hdue) hcalls
      rcases hdue with h | h <;> cases h
  | working more hway hmore hnothing =>
      have hcalled := calls_perform docker.host c hmore
      by_cases hdue : due = .up ∨ due = .start
      · obtain ⟨hafter, hlaunched⟩ := launches hway hcalls hdue
        rw [hafter]
        cases hsucceeds : c.succeeds (docker.host c u.world).1 with
        | true =>
            rw [hsucceeds] at hcalled
            exact .launched more c (.inl rfl) hcalled hnothing hlaunched
        | false => exact .ended trivial
      · obtain ⟨hup, hstart⟩ := not_or.mp hdue
        obtain ⟨hstarts, hover | hon⟩ := onWay_calls hway hcalls hup hstart
        · exact .ended hover
        · exact .working _ hon hcalled (startsNothing_snoc _ hnothing hstarts)

theorem deploying_step {s u : Session W} {op : Op}
    (hadmits : (pipeline settings data).admits due op)
    (h : docker.Deploying settings data services way s due u) :
    docker.Deploying settings data services way s
      ((pipeline settings data).next due op (u.perform docker.host op).1)
      (u.perform docker.host op).2 := by
  cases op with
  | call c => exact deploying_call h hadmits
  | books op =>
      have hfollows := follows_of_admits hadmits (u.perform docker.host (.books op)).1
      cases h with
      | ended hover => exact .ended (over_follows hover hfollows)
      | launched more c hdue hmore hnothing hlaunched =>
          rcases launched_follows hdue hfollows with hdue | hover
          · exact .launched more c hdue hmore hnothing hlaunched
          · exact .ended hover
      | working more hway hmore hnothing =>
          exact .working more (onWay_follows hway hfollows) hmore hnothing

end Steps

/-! ### The run -/

section Run

variable (docker : Dockerd W) (settings : Settings) (data : DeployCommand)

/-- Where a deployment that begins at `s` has its sources. -/
def cloned (s : Session W) : Session W :=
  (s.run docker.host (untilSources settings data deployEmit)).2

/-- A look for the compose file of a directory finds one. -/
def findsComposeFile (w : W) (dir : JsString) : Bool :=
  let yml := docker.host (.existsSync (Path.join [dir, js "docker-compose.yml"])) w
  yml.1 || (docker.host (.existsSync (Path.join [dir, js "docker-compose.yaml"])) yml.2).1

/-- The sources a deployment clones have a compose file where it builds. -/
def hasComposeFile (s : Session W) : Bool :=
  docker.findsComposeFile (docker.cloned settings data s).world (data.contextDir settings)

/-- The services of that compose file. -/
def composeServices (s : Session W) : List JsString :=
  docker.services (docker.cloned settings data s).world (data.contextDir settings)

variable {docker settings data} {s t v : Session W}

/-- The look for a compose file starts nothing, and leaves docker as it is. -/
structure Looked (docker : Dockerd W) (s t : Session W) : Prop where
  calls : ∃ looks, t.calls = s.calls ++ looks ∧ ∀ d ∈ looks, ∀ files k, ¬ Starts files d.1 k
  holds : ∀ k, docker.holds t.world k ↔ docker.holds s.world k
  services : docker.services t.world = docker.services s.world

theorem looked_existsSync (path : JsString) (s : Session W) :
    docker.Looked s (s.perform docker.host (.call (.existsSync path))).2 := by
  refine ⟨⟨[_], rfl, ?_⟩, fun k => ?_, docker.spared (.existsSync path) s.world trivial⟩
  · intro d hd
    obtain rfl := List.mem_singleton.mp hd
    exact fun _ _ => id
  · exact docker.holds_of_bystands (fun _ _ => ⟨id, id⟩) k

theorem Looked.trans {u : Session W} (h : docker.Looked s t) (h' : docker.Looked t u) :
    docker.Looked s u := by
  obtain ⟨⟨looks, hcalls, hlooks⟩, hholds, hservices⟩ := h
  obtain ⟨⟨others, hcalls', hothers⟩, hholds', hservices'⟩ := h'
  refine ⟨⟨looks ++ others, ?_, ?_⟩, fun k => (hholds' k).trans (hholds k),
    hservices'.trans hservices⟩
  · rw [hcalls', hcalls, List.append_assoc]
  · exact List.forall_mem_append.mpr ⟨hlooks, hothers⟩

variable (docker) in
theorem run_hasComposeFile (dir : JsString) (s : Session W) :
    (s.run docker.host (Docker.hasComposeFile dir)).1 =
        .ok (docker.findsComposeFile s.world dir) ∧
      docker.Looked s (s.run docker.host (Docker.hasComposeFile dir)).2 := by
  let yml := Path.join [dir, js "docker-compose.yml"]
  let yaml := Path.join [dir, js "docker-compose.yaml"]
  let t := (s.perform docker.host (.call (.existsSync yml))).2
  have hfirst : docker.Looked s t := looked_existsSync yml s
  have hrun : s.run docker.host (Docker.hasComposeFile dir) =
      t.run docker.host (if (docker.host (.existsSync yml) s.world).1 then pure true
        else call (.existsSync yaml)) := rfl
  rw [hrun, findsComposeFile]
  cases (docker.host (.existsSync yml) s.world).1 with
  | true => exact ⟨rfl, hfirst⟩
  | false => exact ⟨rfl, hfirst.trans (looked_existsSync yaml t)⟩

/-- What was run before a value came, came to a value. -/
theorem ok_of_bind {α β : Type} {p : Agent α} {f : α → Agent β} {b : β}
    (h : (s.run docker.host (p >>= f)).1 = .ok b) :
    ∃ a, (s.run docker.host p).1 = .ok a ∧
      s.run docker.host (p >>= f) = (s.run docker.host p).2.run docker.host (f a) := by
  cases hp : (s.run docker.host p).1 with
  | ok a => exact ⟨a, rfl, Program.run_bind_of_ok hp f⟩
  | error e =>
      have herror : s.run docker.host (p >>= f) = (.error e, _) := Program.run_bind_of_error hp f
      rw [herror] at h
      cases h

theorem run_decideCompose {found useCompose : Bool}
    (h : (s.run docker.host (decideCompose settings data found)).1 = .ok useCompose) :
    Due.chosen settings data found = (if useCompose then .env else .source) ∧
      (s.run docker.host (decideCompose settings data found)).2 = s := by
  unfold decideCompose at h ⊢
  unfold Due.chosen
  dsimp only at h ⊢
  by_cases hmissing : (decide (settings.casing.toUpperCase data.deployPreset = js "COMPOSE") &&
      !found) = true
  · rw [if_pos hmissing] at h
    cases h
  · rw [if_neg hmissing] at h ⊢
    rw [if_neg hmissing]
    cases Except.ok.inj h
    exact ⟨rfl, rfl⟩

/-- The way that is taken is the one chosen by the preset and the compose file. -/
theorem run_shouldUseCompose {dir : JsString} {useCompose : Bool}
    (h : (s.run docker.host (shouldUseCompose settings data.deployPreset dir)).1 =
      .ok useCompose) :
    Due.chosen settings data (docker.findsComposeFile s.world dir) =
        (if useCompose then .env else .source) ∧
      docker.Looked s (s.run docker.host (shouldUseCompose settings data.deployPreset dir)).2 := by
  obtain ⟨hfound, hlooked⟩ := docker.run_hasComposeFile dir s
  rw [shouldUseCompose_eq] at h ⊢
  obtain ⟨found, hok, hrun⟩ := ok_of_bind h
  cases hfound.symm.trans hok
  rw [hrun] at h ⊢
  obtain ⟨hchosen, hsame⟩ := run_decideCompose h
  rw [hsame]
  exact ⟨hchosen, hlooked⟩

/-- A deployment that returns true has come to the end of its last part. -/
theorem run_deploy {emit : List JsString → Agent Unit}
    (h : s.run docker.host (deploy settings data deployEmit emit) = (.ok true, t)) :
    s.run docker.host (do
      let buildDir ← untilSources settings data deployEmit
      let useCompose ← shouldUseCompose settings data.deployPreset buildDir
      fromSources settings data deployEmit emit buildDir useCompose) = (.ok true, t) := by
  rw [deploy_eq, Session.run, Program.run_tryCatch] at h
  change Program.run (Session.perform docker.host) _ s = _
  generalize Program.run (Session.perform docker.host) _ s = outcome at h ⊢
  rcases outcome with ⟨e | b, v⟩
  · cases h
  · exact h

/-- With its sources there, a deployment has started nothing, and kept the orphans. -/
theorem preparing_untilSources (services : List JsString) {dir : JsString}
    (h : (s.run docker.host (untilSources settings data deployEmit)).1 = .ok dir) :
    dir = data.contextDir settings ∧ ∃ more,
      (docker.cloned settings data s).calls = s.calls ++ more ∧
      (∀ d ∈ more, ∀ files k, ¬ Starts files d.1 k) ∧
      docker.Keeps settings data services s.world (docker.cloned settings data s).world := by
  have hstart : docker.Preparing settings data services s .building s :=
    .early [] rfl (List.append_nil _).symm (List.forall_mem_nil _)
  obtain ⟨due, hpost, hpreparing⟩ := obeys_untilSources.run_coupled (Session.perform docker.host)
    (fun _ _ _ => preparing_step) hstart
  change OrHalts _ (s.run docker.host (untilSources settings data deployEmit)).1 due at hpost
  rw [h] at hpost
  obtain ⟨hdir, rfl⟩ := hpost
  refine ⟨hdir, ?_⟩
  cases hpreparing with
  | late hlate => exact hlate.elim
  | early more hstage hcalls hnothing => exact ⟨more, hcalls, hnothing, hstage⟩

/-- A deployment that succeeds ends with the start, and started nothing before. -/
theorem deploy_launches {emit : List JsString → Agent Unit}
    (hemit : ∀ services, (emit services).Obeys (pipeline settings data)
      (.showing .expected .track) fun r due => r = .ok () ∧ due = .up)
    (h : s.run docker.host (deploy settings data deployEmit emit) = (.ok true, t)) :
    ∃ more c, callsSince s t = more ++ [(c, true)] ∧
      (∀ d ∈ more, ∀ files k, ¬ Starts files d.1 k) ∧
      docker.Launched settings data (docker.composeServices settings data s)
        (.chosen settings data (docker.hasComposeFile settings data s)) s.world c t.world := by
  let services := docker.composeServices settings data s
  let way := Due.chosen settings data (docker.hasComposeFile settings data s)
  have hbody := run_deploy h
  obtain ⟨dir, hsources, hrest⟩ := ok_of_bind (congrArg Prod.fst hbody)
  obtain ⟨rfl, more, hmore, hnothing, hkeeps⟩ := preparing_untilSources services hsources
  rw [hrest] at hbody
  change (docker.cloned settings data s).run docker.host _ = _ at hbody
  obtain ⟨useCompose, hdecided, hrun⟩ := ok_of_bind (congrArg Prod.fst hbody)
  rw [hrun] at hbody
  obtain ⟨hway, hlooked⟩ := run_shouldUseCompose hdecided
  change way = _ at hway
  obtain ⟨⟨looks, hlooks, hquiet⟩, hholds, hservices⟩ := hlooked
  generalize ((docker.cloned settings data s).run docker.host _).2 = v
    at hbody hlooks hholds hservices
  have hcalls : v.calls = s.calls ++ (more ++ looks) := by
    rw [hlooks, hmore, List.append_assoc]
  have hon : docker.OnWay settings data services way s.world way v.world := by
    cases useCompose with
    | true =>
        rw [hway]
        refine ⟨rfl, congrFun hservices _, fun k horphan => ?_⟩
        exact (hholds k).trans (hkeeps k horphan)
    | false =>
        rw [hway]
        exact rfl
  have hstart : docker.Deploying settings data services way s way v :=
    .working (more ++ looks) hon hcalls (List.forall_mem_append.mpr ⟨hnothing, hquiet⟩)
  have hobeys := obeys_fromSources hemit useCompose
  rw [← hway] at hobeys
  obtain ⟨due, hpost, hdeploying⟩ := hobeys.run_coupled (Session.perform docker.host)
    (fun _ _ _ => deploying_step) hstart
  change OrHalts _ (v.run docker.host _).1 due at hpost
  change docker.Deploying settings data services way s due (v.run docker.host _).2 at hdeploying
  rw [hbody] at hpost hdeploying
  obtain ⟨-, rfl⟩ := hpost
  cases hdeploying with
  | ended hover => exact hover.elim
  | launched more c hdue hcalls hnothing hlaunched =>
      exact ⟨more, c, callsSince_eq hcalls, hnothing, hlaunched⟩
  | working more hon => exact hon.elim

end Run

end Dockerd

end OpticsAgent.Tunnel
