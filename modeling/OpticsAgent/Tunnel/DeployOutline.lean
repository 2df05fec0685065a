import Mathlib
import OpticsAgent.Tunnel.DeployPipeline

/-!
A deployment in outline. It first removes what is there, then clones, then
either brings a compose project up or builds an image and starts one container,
and reports its progress on the way. Nothing is removed any more once a
repository was cloned, a failure of a step after that ends the work, and RUNNING
is reported only for what was started. Whatever keeps to the pipeline keeps to
its outline.
-/

namespace OpticsAgent.Tunnel

open OpticsAgent.Ecma OpticsAgent.Node OpticsAgent.Lib OpticsAgent.Docker OpticsAgent.Docker.Agent
open OpticsAgent.Service

/-- The calls that only look at the workspace. -/
inductive LookCall : Call → Prop
  | existsSync (path : JsString) : LookCall (.existsSync path)
  | isDirectory (path : JsString) : LookCall (.isDirectory path)
  | readdirSync (path : JsString) : LookCall (.readdirSync path)
  | services (dir : JsString) : LookCall (.runSync configArgs (some dir))

/-- The calls that make or change files of the workspace. -/
inductive FileCall : Call → Prop
  | mkdirSync (path : JsString) : FileCall (.mkdirSync path)
  | chmodSync (path : JsString) : FileCall (.chmodSync path)
  | writeFileSync (path content : JsString) : FileCall (.writeFileSync path content)

/-- The call that clones a repository. -/
inductive CloneCall : Call → Prop
  | clone (more : List JsString) : CloneCall (.run (js "run" :: js "--rm" :: more) none)

/-- How far a deployment has come. -/
inductive DeployStage where
  | received
  /-- `building` is reported; what is there is being removed. -/
  | clearing
  | cloned
  | built
  /-- `starting` is reported; the container is created and started. -/
  | starting
  | launched
  /-- A clone, a build or a start failed. -/
  | broken
  | running
  /-- The status seen after the deployment is reported. -/
  | observed
  | failed
  /-- The database rejected what the marker needs, and the work ended there. -/
  | rejected
deriving DecidableEq

namespace DeployStage

/-- The statuses reported, and where they lead. -/
def report : DeployStage → ServiceStatus → Option DeployStage
  | .received, .building => some .clearing
  | .built, .starting => some .starting
  | .launched, .running => some .running
  | .clearing, .failed | .cloned, .failed | .starting, .failed | .broken, .failed => some .failed
  | .running, _ => some .observed
  | _, _ => none

/-- What is emitted in a stage. -/
def emits (q : DeployStage) : Emission → Prop
  | .serviceLog .. => True
  | .serviceStatus _ status => (q.report status).isSome = true
  | .containerStatus _ => q = .received ∨ q = .cloned ∨ q = .running
  | .serviceLogMarkers .. => q = .received

/-- What docker and the file system are asked for in a stage. -/
def calls (settings : Settings) (name : JsString) : DeployStage → Call → Prop
  | .clearing, c => LookCall c ∨ FileCall c ∨
      CleanCall settings (Path.join [settings.buildRoot, name]) c ∨ RemovalCall name c ∨ CloneCall c
  | .cloned, c => LookCall c ∨ FileCall c ∨ CloneCall c ∨
      (∃ dir src version, c = .buildImage dir src (name ++ js ":" ++ version)) ∨
      ∃ dir, c = .run (composeUpArgs name) (some dir)
  | .starting, c => (∃ spec, spec.name = name ∧ c = .createContainer spec) ∨
      c = .startContainer name
  | .running, c => SnapshotCall settings name c
  | _, _ => False

/-- Where a call leads. -/
def afterCall (name : JsString) (q : DeployStage) (c : Call) (succeeded : Bool) : DeployStage :=
  match c with
  | .run args _ =>
      if succeeded then if args = composeUpArgs name then .launched else .cloned else .broken
  | .buildImage .. => if succeeded then .built else .broken
  | .createContainer _ => if succeeded then q else .broken
  | .startContainer _ => if succeeded then .launched else .broken
  | _ => q

/-- The deployment is over, with its outcome reported. -/
def Ended (q : DeployStage) : Prop := q = .running ∨ q = .observed ∨ q = .failed

/-- The deployment is over, or never began to work. -/
def Closed (q : DeployStage) : Prop := q.Ended ∨ q = .rejected

/-- A failure can be reported. -/
def CanFail (q : DeployStage) : Prop := q.report .failed = some .failed

end DeployStage

/-- A deployment of service `i`, which docker knows as `name`, in outline. -/
def outline (settings : Settings) (name : JsString) (i : ℤ) :
    Protocol Op Op.Reply DeployStage where
  admits q
    | .books .now | .books .turn => True
    | .books (.emit emission) => emission.serviceIndex = i ∧ q.emits emission
    | .books (.track j _) => j = i
    | .books (.storeSnapshot snapshot) => snapshot.serviceIndex = i
    | .books (.sendUpdate j ..) => j = i
    | .books (.findMarker j ..) => j = i ∧ q = .received
    | .books (.createMarker marker) => marker.serviceIndex = i ∧ q = .received
    | .books _ => False
    | .call c => q.calls settings name c
  next q
    | .books (.emit (.serviceStatus _ status)), _ => (q.report status).getD q
    | .books (.findMarker ..), reply => if succeeds (α := Bool) reply then q else .rejected
    | .books (.createMarker _), reply => if succeeds (α := Unit) reply then q else .rejected
    | .books _, _ => q
    | .call c, reply => q.afterCall name c (c.succeeds reply)

/-- The sources are being prepared. -/
def DeployStage.Preparing (q : DeployStage) : Prop := q = .clearing ∨ q = .cloned

/-- What a call in a stage can be, and where it leads. -/
inductive Advance (settings : Settings) (name : JsString) :
    DeployStage → Call → Bool → DeployStage → Prop
  | looked (q : DeployStage) (c : Call) (succeeded : Bool)
      (h : LookCall c ∨ FileCall c ∨ SnapshotCall settings name c) :
      Advance settings name q c succeeded q
  | removed (c : Call) (succeeded : Bool)
      (h : CleanCall settings (Path.join [settings.buildRoot, name]) c ∨ RemovalCall name c) :
      Advance settings name .clearing c succeeded .clearing
  | cloned (q : DeployStage) (c : Call) (hq : q.Preparing) (h : CloneCall c) :
      Advance settings name q c true .cloned
  | built (dir : JsString) (src : List JsString) (tag : JsString) :
      Advance settings name .cloned (.buildImage dir src tag) true .built
  | up (cwd : Option JsString) :
      Advance settings name .cloned (.run (composeUpArgs name) cwd) true .launched
  | created (spec : ContainerSpec) :
      Advance settings name .starting (.createContainer spec) true .starting
  | started : Advance settings name .starting (.startContainer name) true .launched
  | broke (q : DeployStage) (c : Call) (hq : q.Preparing ∨ q = .starting) :
      Advance settings name q c false .broken

theorem afterCall_clone {name : JsString} (q : DeployStage) (more : List JsString)
    (cwd : Option JsString) :
    q.afterCall name (.run (js "run" :: js "--rm" :: more) cwd) true = .cloned := by
  have hne : js "run" :: js "--rm" :: more ≠ composeUpArgs name := fun h =>
    absurd (List.cons.inj h).1 (by decide)
  rw [DeployStage.afterCall, if_pos rfl, if_neg hne]

theorem afterCall_up {name : JsString} (q : DeployStage) (cwd : Option JsString) :
    q.afterCall name (.run (composeUpArgs name) cwd) true = .launched := by
  rw [DeployStage.afterCall, if_pos rfl, if_pos rfl]

/-- A call that only looks, changes files, or removes what is there leads nowhere else. -/
theorem afterCall_quiet (settings : Settings) {name : JsString} (q : DeployStage) {c : Call}
    (h : LookCall c ∨ FileCall c ∨ CleanCall settings (Path.join [settings.buildRoot, name]) c ∨
      RemovalCall name c ∨ SnapshotCall settings name c)
    (succeeded : Bool) : q.afterCall name c succeeded = q := by
  rcases h with h | h | h | h | h
  · cases h <;> rfl
  · cases h <;> rfl
  · cases h <;> rfl
  · cases h <;> rfl
  · cases h <;> rfl

theorem advance_clone {settings : Settings} {name : JsString} {q : DeployStage}
    (hq : q.Preparing) {c : Call} (h : CloneCall c) (succeeded : Bool) :
    Advance settings name q c succeeded (q.afterCall name c succeeded) := by
  obtain ⟨more⟩ := h
  cases succeeded with
  | false => exact .broke q _ (.inl hq)
  | true =>
      rw [afterCall_clone]
      exact .cloned q _ hq (.clone more)

theorem advance_of_calls {settings : Settings} {name : JsString} {q : DeployStage} {c : Call}
    (h : q.calls settings name c)
    (succeeded : Bool) : Advance settings name q c succeeded (q.afterCall name c succeeded) := by
  cases q with
  | clearing =>
      rcases h with h | h | h | h | h
      · rw [afterCall_quiet settings _ (.inl h)]
        exact .looked _ c _ (.inl h)
      · rw [afterCall_quiet settings _ (.inr (.inl h))]
        exact .looked _ c _ (.inr (.inl h))
      · rw [afterCall_quiet settings _ (.inr (.inr (.inl h)))]
        exact .removed c _ (.inl h)
      · rw [afterCall_quiet settings _ (.inr (.inr (.inr (.inl h))))]
        exact .removed c _ (.inr h)
      · exact advance_clone (.inl rfl) h succeeded
  | cloned =>
      rcases h with h | h | h | ⟨dir, src, version, rfl⟩ | ⟨dir, rfl⟩
      · rw [afterCall_quiet settings _ (.inl h)]
        exact .looked _ c _ (.inl h)
      · rw [afterCall_quiet settings _ (.inr (.inl h))]
        exact .looked _ c _ (.inr (.inl h))
      · exact advance_clone (.inr rfl) h succeeded
      · cases succeeded with
        | false => exact .broke _ _ (.inl (.inr rfl))
        | true => exact .built dir src _
      · cases succeeded with
        | false => exact .broke _ _ (.inl (.inr rfl))
        | true =>
            rw [afterCall_up]
            exact .up (some dir)
  | starting =>
      rcases h with ⟨spec, -, rfl⟩ | rfl
      · cases succeeded with
        | false => exact .broke _ _ (.inr rfl)
        | true => exact .created spec
      · cases succeeded with
        | false => exact .broke _ _ (.inr rfl)
        | true => exact .started
  | running =>
      rw [afterCall_quiet settings _ (.inr (.inr (.inr (.inr h))))]
      exact .looked _ c _ (.inr (.inr h))
  | received => exact h.elim
  | built => exact h.elim
  | launched => exact h.elim
  | broken => exact h.elim
  | observed => exact h.elim
  | failed => exact h.elim
  | rejected => exact h.elim

/-! ## The pipeline keeps to its outline -/

/-- How far a deployment has come when this is due. -/
def stageOf : Due → DeployStage
  | .marker | .newMarker | .markerTold | .showing .greeting _ | .building => .received
  | .inspect | .stop | .remove | .clear | .helper | .spread => .clearing
  | .parent begun .. | .clone begun .. => if begun then .cloned else .clearing
  | .find | .enter | .permit | .list | .permitEach .. | .composeYml | .composeYaml | .env
  | .services | .override | .showing .expected _ | .up | .source | .image _ => .cloned
  | .starting => .built
  | .create | .start => .starting
  | .running => .launched
  | .halted => .broken
  | .showing .looked _ | .status => .running
  | .observed => .observed
  | .failed => .failed
  | .rejected => .rejected

/-- The stage is that of what is due, or one a failure can be reported in. -/
def Outlined : Due → DeployStage → Prop
  | .halted, q => q.CanFail
  | due, q => q = stageOf due

section Outline

-- The pipeline decides on texts; its branches are not to be evaluated.
attribute [local irreducible] leaves

variable {settings : Settings} {data : DeployCommand} {due : Due} {q : DeployStage}

theorem preparing_begun (begun : Bool) :
    DeployStage.Preparing (if begun then .cloned else .clearing) := by
  cases begun with
  | true => exact .inr rfl
  | false => exact .inl rfl

theorem DeployStage.Preparing.canFail (h : q.Preparing) : q.CanFail := by
  rcases h with rfl | rfl <;> rfl

theorem outlined_halted (h : q.CanFail) : Outlined .halted q := h

theorem outlined_context : Outlined (.context settings data) .cloned := by
  unfold Due.context
  split_ifs
  · rfl
  · rfl
  · rfl

theorem outlined_cloning (begun : Bool) (checkouts : List Checkout) :
    Outlined (.cloning settings data begun checkouts) (if begun then .cloned else .clearing) := by
  cases checkouts with
  | nil =>
      cases begun with
      | true => exact outlined_context
      | false => exact outlined_halted rfl
  | cons checkout rest =>
      rw [Due.cloning_cons]
      cases leaves (Path.relative settings.cwd settings.buildRoot checkout.directory) with
      | true =>
          rw [if_pos rfl]
          exact outlined_halted (preparing_begun begun).canFail
      | false => rfl

theorem outlined_sources : Outlined (.sources settings data) .clearing := by
  unfold Due.sources
  split_ifs
  · exact outlined_cloning false _
  · rfl

theorem outlined_permitting (files : List JsString) : Outlined (.permitting files) .cloned := by
  cases files <;> rfl

theorem outlined_chosen (found : Bool) : Outlined (.chosen settings data found) .cloned := by
  unfold Due.chosen
  dsimp only
  split_ifs <;> rfl

theorem outlined_report {due' : Due} {status : ServiceStatus} (hq : Outlined due q)
    (hreport : due.report status = some due') :
    ∃ q', q.report status = some q' ∧ Outlined due' q' := by
  unfold Due.report at hreport
  split at hreport
  · cases hreport
    obtain rfl : q = .received := hq
    exact ⟨_, rfl, rfl⟩
  · cases hreport
    obtain rfl : q = .built := hq
    exact ⟨_, rfl, rfl⟩
  · cases hreport
    obtain rfl : q = .launched := hq
    exact ⟨_, rfl, rfl⟩
  · cases hreport
    exact ⟨_, hq, rfl⟩
  · cases hreport
    obtain rfl : q = .running := hq
    exact ⟨_, rfl, rfl⟩
  · cases hreport

theorem afterCall_checkout (name : JsString) (q : DeployStage) {checkout : Checkout} {c : Call}
    (h : CheckoutCall settings checkout c) : q.afterCall name c true = .cloned := by
  obtain ⟨userArgs, mount, -, -⟩ := h
  exact afterCall_clone q _ none

/-- What leads on, or halts the deployment where a failure can be reported. -/
theorem outlined_ite {c : Prop} [Decidable c] (h : Outlined due q) (hfail : q.CanFail) :
    Outlined (if c then due else .halted) q := by
  split_ifs
  · exact h
  · exact outlined_halted hfail

/-- A call that looks at the sources or changes files of them. -/
theorem outlined_quiet (hq : q.Preparing) {c : Call} (h : LookCall c ∨ FileCall c)
    (hafter : ∀ reply, Outlined (due.after settings data c reply) q) :
    q.calls settings (data.dockerName settings) c ∧ ∀ reply,
      Outlined (due.after settings data c reply)
        (q.afterCall (data.dockerName settings) c (c.succeeds reply)) := by
  refine ⟨?_, fun reply => ?_⟩
  · rcases hq with rfl | rfl
    · exact h.imp_right .inl
    · exact h.imp_right .inl
  · rw [afterCall_quiet settings q (h.imp_right .inl)]
    exact hafter reply

theorem outlined_workspace (hmounting : Mounting due) (hdue : Outlined due q) (hq : q.Preparing)
    {c : Call} (h : WorkspaceCall settings c) :
    q.calls settings (data.dockerName settings) c ∧ ∀ reply,
      Outlined (due.after settings data c reply)
        (q.afterCall (data.dockerName settings) c (c.succeeds reply)) := by
  refine outlined_quiet hq ?_ fun reply => ?_
  · cases h with
    | runtime => exact .inl (.existsSync _)
    | root => exact .inr (.mkdirSync _)
  · rw [after_of_mounting hmounting h]
    exact outlined_ite hdue hq.canFail

theorem outlined_removal {c : Call} (h : RemovalCall (data.dockerName settings) c)
    (hafter : ∀ reply, Outlined (due.after settings data c reply) .clearing) :
    DeployStage.clearing.calls settings (data.dockerName settings) c ∧ ∀ reply,
      Outlined (due.after settings data c reply)
        (DeployStage.clearing.afterCall (data.dockerName settings) c (c.succeeds reply)) := by
  refine ⟨.inr (.inr (.inr (.inl h))), fun reply => ?_⟩
  rw [afterCall_quiet settings _ (.inr (.inr (.inr (.inl h))))]
  exact hafter reply

/-- What is called for when something is due is called for in its stage, and leads
to the stage of what is due then. -/
theorem outlined_call (hq : Outlined due q) {c : Call} (hcalls : due.calls settings data c) :
    q.calls settings (data.dockerName settings) c ∧ ∀ reply,
      Outlined (due.after settings data c reply)
        (q.afterCall (data.dockerName settings) c (c.succeeds reply)) := by
  cases due with
  | inspect =>
      obtain rfl : q = .clearing := hq
      obtain rfl : c = .inspectContainer _ := hcalls
      refine outlined_removal .inspect fun (reply : Except JsError Bool) => ?_
      rcases reply with e | (- | -)
      · rfl
      · rfl
      · rfl
  | stop =>
      obtain rfl : q = .clearing := hq
      obtain rfl : c = .stopContainer _ := hcalls
      refine outlined_removal .stop fun (reply : Except JsError Unit) => ?_
      rcases reply with e | -
      · rfl
      · rfl
  | remove =>
      obtain rfl : q = .clearing := hq
      obtain rfl : c = .removeContainer _ := hcalls
      exact outlined_removal .remove fun _ => rfl
  | clear =>
      obtain rfl : q = .clearing := hq
      obtain rfl : c = .rmSync _ := hcalls
      refine ⟨.inr (.inr (.inl .rmSync)), fun (reply : Except JsError Unit) => ?_⟩
      rw [Due.after_clear]
      split_ifs
      · exact outlined_sources
      · exact outlined_halted rfl
      · rfl
  | helper =>
      obtain rfl : q = .clearing := hq
      rcases hcalls with hspace | ⟨mount, hmount, rfl⟩
      · have hmounting : Mounting .helper := trivial
        exact outlined_workspace hmounting rfl (.inl rfl) hspace
      · exact ⟨.inr (.inr (.inl (.helper mount hmount))), fun _ =>
          outlined_ite outlined_sources rfl⟩
  | spread =>
      obtain rfl : q = .clearing := hq
      obtain rfl : c = .mkdirSync _ := hcalls
      exact outlined_quiet (.inl rfl) (.inr (.mkdirSync _)) fun _ =>
        outlined_ite (outlined_cloning false _) rfl
  | parent begun checkout rest =>
      obtain rfl : q = if begun then .cloned else .clearing := hq
      obtain rfl : c = .mkdirSync _ := hcalls
      exact outlined_quiet (preparing_begun begun) (.inr (.mkdirSync _)) fun _ =>
        outlined_ite rfl (preparing_begun begun).canFail
  | clone begun checkout rest =>
      obtain rfl : q = if begun then .cloned else .clearing := hq
      rcases hcalls with hspace | hclone
      · have hmounting : Mounting (.clone begun checkout rest) := trivial
        exact outlined_workspace hmounting rfl (preparing_begun begun) hspace
      · have hstage := afterCall_checkout (data.dockerName settings)
          (if begun then .cloned else .clearing) hclone
        obtain ⟨userArgs, mount, -, -⟩ := hclone
        refine ⟨?_, fun process => ?_⟩
        · cases begun with
          | true => exact .inr (.inr (.inl (.clone _)))
          | false => exact .inr (.inr (.inr (.inr (.clone _))))
        · rw [Due.after_clone]
          cases Call.succeeds (.run _ none) process with
          | true =>
              rw [hstage]
              exact outlined_cloning true rest
          | false => exact outlined_halted rfl
  | find =>
      obtain rfl : q = .cloned := hq
      obtain rfl : c = .existsSync _ := hcalls
      exact outlined_quiet (.inr rfl) (.inl (.existsSync _)) fun _ => outlined_ite rfl rfl
  | enter =>
      obtain rfl : q = .cloned := hq
      obtain rfl : c = .isDirectory _ := hcalls
      exact outlined_quiet (.inr rfl) (.inl (.isDirectory _)) fun _ => outlined_ite rfl rfl
  | permit =>
      obtain rfl : q = .cloned := hq
      obtain rfl : c = .chmodSync _ := hcalls
      exact outlined_quiet (.inr rfl) (.inr (.chmodSync _)) fun _ => outlined_ite rfl rfl
  | list =>
      obtain rfl : q = .cloned := hq
      obtain rfl : c = .readdirSync _ := hcalls
      refine outlined_quiet (.inr rfl) (.inl (.readdirSync _))
        fun (reply : Except JsError (List JsString)) => ?_
      cases reply with
      | ok files => exact outlined_permitting files
      | error e => exact outlined_halted rfl
  | permitEach file rest =>
      obtain rfl : q = .cloned := hq
      obtain rfl : c = .chmodSync _ := hcalls
      exact outlined_quiet (.inr rfl) (.inr (.chmodSync _)) fun _ => outlined_permitting rest
  | composeYml =>
      obtain rfl : q = .cloned := hq
      obtain rfl : c = .existsSync _ := hcalls
      refine outlined_quiet (.inr rfl) (.inl (.existsSync _)) fun (found : Bool) => ?_
      cases found with
      | true => exact outlined_chosen true
      | false => rfl
  | composeYaml =>
      obtain rfl : q = .cloned := hq
      obtain rfl : c = .existsSync _ := hcalls
      exact outlined_quiet (.inr rfl) (.inl (.existsSync _)) fun _ => outlined_chosen _
  | env =>
      obtain rfl : q = .cloned := hq
      obtain ⟨content, rfl⟩ := hcalls
      exact outlined_quiet (.inr rfl) (.inr (.writeFileSync _ _)) fun _ => outlined_ite rfl rfl
  | services =>
      obtain rfl : q = .cloned := hq
      obtain rfl : c = .runSync _ _ := hcalls
      refine outlined_quiet (.inr rfl) (.inl (.services _)) fun (result : CliResult) => ?_
      rw [Due.after_services]
      split_ifs
      · exact outlined_halted rfl
      · rfl
      · exact outlined_halted rfl
  | override =>
      obtain rfl : q = .cloned := hq
      obtain ⟨content, rfl⟩ := hcalls
      exact outlined_quiet (.inr rfl) (.inr (.writeFileSync _ _)) fun _ => outlined_ite rfl rfl
  | up =>
      obtain rfl : q = .cloned := hq
      obtain rfl : c = .run _ _ := hcalls
      refine ⟨.inr (.inr (.inr (.inr ⟨_, rfl⟩))), fun process => ?_⟩
      change Outlined (if Call.succeeds (.run _ _) process = true then .running else .halted) _
      cases Call.succeeds (.run _ _) process with
      | true =>
          rw [afterCall_up]
          rfl
      | false => exact outlined_halted rfl
  | source =>
      obtain rfl : q = .cloned := hq
      obtain rfl : c = .readdirSync _ := hcalls
      refine outlined_quiet (.inr rfl) (.inl (.readdirSync _))
        fun (reply : Except JsError (List JsString)) => ?_
      cases reply with
      | ok src => rfl
      | error e => exact outlined_halted rfl
  | image src =>
      obtain rfl : q = .cloned := hq
      obtain rfl : c = .buildImage _ _ _ := hcalls
      refine ⟨.inr (.inr (.inr (.inl ⟨_, _, _, rfl⟩))), fun reply => ?_⟩
      change Outlined (if Call.succeeds (.buildImage ..) reply = true then .starting else .halted) _
      cases Call.succeeds (.buildImage ..) reply with
      | true => rfl
      | false => exact outlined_halted rfl
  | create =>
      obtain rfl : q = .starting := hq
      obtain rfl : c = .createContainer _ := hcalls
      refine ⟨.inl ⟨_, dockerName_idem, rfl⟩, fun (reply : Except JsError Unit) => ?_⟩
      cases reply with
      | ok _ => rfl
      | error e => exact outlined_halted rfl
  | start =>
      obtain rfl : q = .starting := hq
      obtain rfl : c = .startContainer _ := hcalls
      refine ⟨.inr rfl, fun (reply : Except JsError Unit) => ?_⟩
      cases reply with
      | ok _ => rfl
      | error e => exact outlined_halted rfl
  | showing occasion part =>
      cases occasion with
      | looked =>
          cases part with
          | store =>
              obtain rfl : q = .running := hq
              refine ⟨hcalls, fun reply => ?_⟩
              rw [afterCall_quiet settings _ (.inr (.inr (.inr (.inr hcalls))))]
              rfl
          | track | tell => exact hcalls.elim
      | greeting | expected => exact hcalls.elim
  | marker | newMarker | markerTold | building | starting | running | status | observed | halted
  | failed | rejected => exact hcalls.elim

/-- Whatever keeps to the pipeline keeps to its outline. -/
theorem outline_simulates : (pipeline settings data).Simulates
    (outline settings (data.dockerName settings) data.serviceIndex) Outlined := by
  intro due q op hq hadmits
  match op with
  | .books .now => exact ⟨trivial, fun _ => hq⟩
  | .books .turn => exact ⟨trivial, fun _ => hq⟩
  | .books (.sendUpdate ..) => exact ⟨hadmits, fun _ => hq⟩
  | .books (.track ..) =>
      obtain ⟨rfl, -, occasion, rfl⟩ := hadmits
      refine ⟨rfl, fun _ => ?_⟩
      cases occasion <;> exact hq
  | .books (.storeSnapshot snapshot) =>
      obtain ⟨⟨containers, rfl⟩, occasion, rfl⟩ := hadmits
      refine ⟨rfl, fun _ => ?_⟩
      cases occasion <;> exact hq
  | .books (.emit (.serviceLog ..)) => exact ⟨⟨hadmits.1, trivial⟩, fun _ => hq⟩
  | .books (.emit (.serviceStatus j status)) =>
      obtain ⟨due', hreport⟩ := Option.isSome_iff_exists.mp hadmits.2
      obtain ⟨q', hreport', hq'⟩ := outlined_report hq hreport
      refine ⟨⟨hadmits.1, Option.isSome_of_eq_some hreport'⟩, fun _ => ?_⟩
      change Outlined ((due.report status).getD due) ((q.report status).getD q)
      rw [hreport, hreport']
      exact hq'
  | .books (.emit (.containerStatus snapshot)) =>
      obtain ⟨hi, occasion, rfl⟩ := hadmits
      cases occasion with
      | greeting => exact ⟨⟨hi, .inl hq⟩, fun _ => hq⟩
      | expected => exact ⟨⟨hi, .inr (.inl hq)⟩, fun _ => hq⟩
      | looked => exact ⟨⟨hi, .inr (.inr hq)⟩, fun _ => hq⟩
  | .books (.emit (.serviceLogMarkers ..)) =>
      obtain ⟨hi, rfl⟩ := hadmits
      exact ⟨⟨hi, hq⟩, fun _ => hq⟩
  | .books (.findMarker ..) =>
      obtain ⟨hi, -, rfl⟩ := hadmits
      refine ⟨⟨hi, hq⟩, fun (found : Except JsError Bool) => ?_⟩
      rcases found with e | (- | -)
      · rfl
      · exact hq
      · exact hq
  | .books (.createMarker marker) =>
      obtain ⟨hi, rfl⟩ := hadmits
      refine ⟨⟨hi, hq⟩, fun (stored : Except JsError Unit) => ?_⟩
      cases stored with
      | ok _ => exact hq
      | error e => rfl
  | .call c => exact outlined_call hq hadmits

theorem closed_of_final (hdue : due.Final) (hq : Outlined due q) : q.Closed := by
  rcases hdue with rfl | rfl | rfl | rfl | rfl
  · exact .inr hq
  · exact .inl (.inr (.inr hq))
  · exact .inl (.inl hq)
  · exact .inl (.inl hq)
  · exact .inl (.inr (.inl hq))

end Outline

end OpticsAgent.Tunnel
