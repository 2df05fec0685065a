import Mathlib
import OpticsAgent.Tunnel.DeployPipeline

/-!
Which containers a command line or a call of docker is about: those of a compose
project, or the one of a name. Looking at a service, stopping, restarting and
deleting it decide by the preset alone which of the two they ask for, and ask for
nothing else.
-/

namespace OpticsAgent.Tunnel

open OpticsAgent.Ecma OpticsAgent.Node OpticsAgent.Lib OpticsAgent.Docker OpticsAgent.Docker.Agent
open OpticsAgent.Service

/-! ## Containers and what they are addressed by -/

/-- A container docker knows, with the labels compose gave it. -/
structure KnownContainer where
  id : ℕ
  name : JsString
  project : Option JsString
  service : Option JsString
deriving DecidableEq

inductive Addressee where
  | project (name : JsString)
  | container (name : JsString)
deriving DecidableEq

def Addressee.Finds : Addressee → KnownContainer → Prop
  | .project name, k => k.project = some name
  | .container name, k => k.name = name

instance (addressee : Addressee) (k : KnownContainer) : Decidable (addressee.Finds k) := by
  cases addressee <;> exact inferInstanceAs (Decidable (_ = _))

/-- The filter of `docker ps` for the containers of a project. -/
def projectFilter : JsString := js "label=com.docker.compose.project="

/-- What a command line is about: `compose -p` and the filter of `ps` name a
project, `inspect` a container. -/
def commandAddressee : List JsString → Option Addressee
  | [command, name] => if command = js "inspect" then some (.container name) else none
  | command :: option :: name :: rest =>
      if command = js "compose" ∧ option = js "-p" then some (.project name)
      else if command = js "ps" ∧ name = js "--filter" then
        rest.head?.map fun filter => .project (filter.drop projectFilter.length)
      else none
  | _ => none

/-- The containers that a call asks docker to look at or to change. -/
def callAddressee : Call → Option Addressee
  | .runSync args _ => commandAddressee args
  | .run args _ => commandAddressee args
  | .inspectContainer name => some (.container name)
  | .stopContainer name => some (.container name)
  | .restartContainer name => some (.container name)
  | .startContainer name => some (.container name)
  | .removeContainer name => some (.container name)
  | _ => none

theorem commandAddressee_cons (command option name : JsString) (rest : List JsString) :
    commandAddressee (command :: option :: name :: rest) =
      if command = js "compose" ∧ option = js "-p" then some (.project name)
      else if command = js "ps" ∧ name = js "--filter" then
        rest.head?.map fun filter => .project (filter.drop projectFilter.length)
      else none := rfl

theorem commandAddressee_compose (project verb : JsString) (more : List JsString) :
    commandAddressee (js "compose" :: js "-p" :: project :: verb :: more) =
      some (.project project) := by
  rw [commandAddressee_cons, if_pos ⟨rfl, rfl⟩]

theorem commandAddressee_composePs (project : JsString) :
    commandAddressee (composePsArgs project) = some (.project project) :=
  commandAddressee_compose project (js "ps") [js "-a", js "--format", js "json"]

theorem commandAddressee_projectPs (project : JsString) :
    commandAddressee (projectPsArgs project) = some (.project project) := by
  have hcommand : ¬ (js "ps" = js "compose" ∧ js "-a" = js "-p") := by decide
  have hdrop : (projectFilter ++ project).drop projectFilter.length = project :=
    List.drop_left ..
  rw [projectPsArgs, commandAddressee_cons, if_neg hcommand, if_pos ⟨rfl, rfl⟩]
  exact congrArg (fun name => some (Addressee.project name)) hdrop

theorem commandAddressee_inspect (name : JsString) :
    commandAddressee [js "inspect", name] = some (.container name) := by
  rw [commandAddressee, if_pos rfl]

/-- A helper container is not one of a service. -/
theorem commandAddressee_run (option name : JsString) (rest : List JsString) :
    commandAddressee (js "run" :: option :: name :: rest) = none := by
  have hcompose : ¬ (js "run" = js "compose" ∧ option = js "-p") := fun h =>
    absurd h.1 (by decide)
  have hps : ¬ (js "run" = js "ps" ∧ name = js "--filter") := fun h => absurd h.1 (by decide)
  rw [commandAddressee_cons, if_neg hcompose, if_neg hps]

theorem commandAddressee_down (project : JsString) (deleteScope : DeleteScope) :
    commandAddressee (composeDownArgs project deleteScope) = some (.project project) := by
  cases deleteScope with
  | service => exact commandAddressee_compose project _ _
  | containers => exact commandAddressee_compose project _ _

/-! ## Operations that keep to an addressee -/

/-- The call takes what it addresses away when it succeeds. -/
def Addressee.removedBy : Addressee → Call → Bool
  | .project name, .run args _ =>
      args = composeDownArgs name .service || args = composeDownArgs name .containers
  | .container name, .removeContainer other => other = name
  | _, _ => false

/-- How far an operation has come with what it addresses. -/
inductive Contact where
  | untouched | touched | removed
deriving DecidableEq

def Contact.after (target : Addressee) (q : Contact) (c : Call) (succeeded : Bool) : Contact :=
  if q = .removed then .removed
  else if target.removedBy c && succeeded then .removed
  else if callAddressee c = some target then .touched
  else q

/-- Calls that neither create a container nor bring a project up. -/
def CreatesNothing : Call → Prop
  | .createContainer _ => False
  | .run args _ => ∀ project, args ≠ composeUpArgs project
  | _ => True

/-- An operation on one addressee: it addresses nothing else, creates nothing, and
reports `removed` only when that is gone. -/
def addressing (target : Addressee) : Protocol Op Op.Reply Contact where
  admits q
    | .books (.emit (.serviceStatus _ .removed)) => q = .removed
    | .books _ => True
    | .call c => (callAddressee c = none ∨ callAddressee c = some target) ∧ CreatesNothing c
  next q
    | .books _, _ => q
    | .call c, reply => q.after target c (c.succeeds reply)

/-- What the operations on a service address: its project, or its container. -/
def lifecycleTarget (settings : Settings) (serviceName deployPreset : JsString) : Addressee :=
  if isComposePreset settings.casing deployPreset then
    .project (toDockerName settings.casing serviceName)
  else .container (toDockerName settings.casing serviceName)

-- The programs below decide on texts; their branches are not to be evaluated.
attribute [local irreducible] Program.All Program.Obeys

section Contact

variable {target : Addressee} {q : Contact}

theorem addressee_of_removedBy {c : Call} (h : target.removedBy c = true) :
    callAddressee c = some target := by
  unfold Addressee.removedBy at h
  split at h
  · rename_i name args cwd
    rcases (Bool.or_eq_true _ _).mp h with hargs | hargs
    · rw [callAddressee, of_decide_eq_true hargs]
      exact commandAddressee_down name .service
    · rw [callAddressee, of_decide_eq_true hargs]
      exact commandAddressee_down name .containers
  · rename_i name other
    exact congrArg (fun name => some (Addressee.container name)) (of_decide_eq_true h)
  · cases h

theorem Contact.after_other {c : Call} (h : callAddressee c = none) (succeeded : Bool) :
    q.after target c succeeded = q := by
  have hremoves : target.removedBy c = false := by
    rw [← Bool.not_eq_true]
    intro hremoves
    cases (addressee_of_removedBy hremoves).symm.trans h
  have hnone : ¬ none = some target := fun h => Option.some_ne_none target h.symm
  rw [Contact.after, hremoves, h, Bool.false_and, if_neg Bool.false_ne_true, if_neg hnone]
  split_ifs with hq
  · exact hq.symm
  · rfl

theorem Contact.after_target {c : Call} (h : callAddressee c = some target) (succeeded : Bool) :
    q.after target c succeeded ≠ .untouched := by
  rw [Contact.after, if_pos h]
  split_ifs
  · exact Contact.noConfusion
  · exact Contact.noConfusion
  · exact Contact.noConfusion

theorem Contact.after_removal {c : Call} (h : target.removedBy c = true) :
    q.after target c true = .removed := by
  rw [Contact.after, h]
  split_ifs with hq hgone
  · rfl
  · rfl
  · exact absurd rfl hgone
  · exact absurd rfl hgone

end Contact

section Operations

variable {target : Addressee} {q : Contact} {i : ℤ}

theorem steady_lifecycleLog {emit : HubEmit} (hemit : ∀ e, (emit (.serviceLog i e)) =
    emitToHub (.serviceLog i e)) (containerName line : JsString) :
    Program.Steady (addressing target) q (sendLog emit i containerName .lifecycle line) := by
  refine (Program.Steady.ask ⟨trivial, fun _ => rfl⟩).bind fun time => ?_
  rw [hemit]
  exact .ask ⟨trivial, fun _ => rfl⟩

/-- Every status but `removed` may be told. -/
theorem idles_status {status : ServiceStatus} (h : status ≠ .removed ∨ q = .removed) :
    (addressing target).Idles q (.books (.emit (.serviceStatus i status))) := by
  refine ⟨?_, fun _ => rfl⟩
  cases status with
  | removed => exact h.resolve_left fun hne => hne rfl
  | _ => trivial

theorem steady_serviceStatus {status : ServiceStatus} (h : status ≠ .removed) :
    Program.Steady (addressing target) q (sendStatus (serviceEmit i) i status) :=
  (Program.Steady.ask (idles_status (.inl h))).bind fun _ =>
    (Program.Steady.ask ⟨trivial, fun _ => rfl⟩).bind fun _ => .ask ⟨trivial, fun _ => rfl⟩

theorem steady_deleteStatus {status : ServiceStatus} (h : status ≠ .removed ∨ q = .removed) :
    Program.Steady (addressing target) q (sendStatus (deleteEmit i) i status) :=
  .ask (idles_status h)

/-- A call about the target, and what comes behind it. -/
theorem obeys_targetThen {α : Type} {c : Call} {f : c.Reply → Agent α}
    {post : Except JsError α → Contact → Prop} (htarget : callAddressee c = some target)
    (hcreates : CreatesNothing c)
    (hf : ∀ reply q', q' ≠ .untouched → (f reply).Obeys (addressing target) q' post) :
    (call c >>= f).Obeys (addressing target) q post :=
  .askThen ⟨.inr htarget, hcreates⟩ fun reply => hf reply _ (Contact.after_target htarget _)

/-- A process about the target that is waited for. -/
theorem obeys_targetRun {args : List JsString} {label : JsString} {sendLine : JsString → Agent Unit}
    (htarget : commandAddressee args = some target)
    (hcreates : CreatesNothing (.run args none))
    (hline : ∀ q line, Program.Steady (addressing target) q (sendLine line)) :
    (DockerCli.run args label none sendLine).Obeys (addressing target) q fun r q' =>
      q' ≠ .untouched ∧
        (target.removedBy (.run args none) = true → r = .ok () → q' = .removed) := by
  have htouched : ∀ succeeded, q.after target (.run args none) succeeded ≠ .untouched :=
    Contact.after_target (c := .run args none) htarget
  refine obeys_dockerCliRun ⟨.inr htarget, hcreates⟩ (fun _ => hline _) ?_ ?_
  · intro process hsucceeds
    refine ⟨htouched _, fun hremoves _ => ?_⟩
    change q.after target (.run args none) (Call.succeeds (.run args none) process) = .removed
    rw [hsucceeds, Contact.after_removal hremoves]
  · intro process e _
    exact ⟨htouched _, fun _ h => nomatch h⟩

variable (settings : Settings) (serviceName deployPreset : JsString)

theorem createsNothing_verb {project verb : JsString} {more : List JsString}
    (h : verb ≠ js "up") :
    CreatesNothing (.run (js "compose" :: js "-p" :: project :: verb :: more) none) := by
  intro other hargs
  obtain ⟨-, hargs⟩ := List.cons.inj hargs
  obtain ⟨-, hargs⟩ := List.cons.inj hargs
  obtain ⟨-, hargs⟩ := List.cons.inj hargs
  exact h (List.cons.inj hargs).1

/-- A step by `compose` or on the one container, as the preset says. -/
theorem obeys_byPreset {verb label : JsString} {action : Agent (Except JsError Unit)}
    {log : JsString → Agent Unit} {done : Unit → Agent Unit} (hverb : verb ≠ js "up")
    (hlog : ∀ (target : Addressee) q line, Program.Steady (addressing target) q (log line))
    (haction : action.Obeys (addressing (.container (toDockerName settings.casing serviceName))) q
      fun r q' => q' ≠ .untouched ∧ ∃ reply, r = .ok reply)
    (hdone : ∀ (target : Addressee) q', q' ≠ .untouched →
      (done ()).Obeys (addressing target) q' fun _ q' => q' ≠ .untouched) :
    (if isComposePreset settings.casing deployPreset = true then
        DockerCli.run [js "compose", js "-p", toDockerName settings.casing serviceName, verb]
          label none log >>= done
      else action >>= fun reply => await reply >>= done).Obeys
        (addressing (lifecycleTarget settings serviceName deployPreset)) q
        fun _ q' => q' ≠ .untouched := by
  rw [lifecycleTarget]
  cases isComposePreset settings.casing deployPreset with
  | true =>
      rw [if_pos rfl, if_pos rfl]
      exact (obeys_targetRun (commandAddressee_compose _ _ _) (createsNothing_verb hverb)
        (hlog _)).bind (fun _ q' h => hdone _ q' h.1) fun _ _ h => h.1
  | false =>
      rw [if_neg Bool.false_ne_true, if_neg Bool.false_ne_true]
      refine haction.bind ?_ fun _ _ h => h.1
      rintro reply q' ⟨hq', -⟩
      cases reply with
      | ok _ => exact hdone _ q' hq'
      | error e => exact obeys_awaitError hq'

theorem obeys_targetCall {c : Call} (htarget : callAddressee c = some target)
    (hcreates : CreatesNothing c) :
    (call c).Obeys (addressing target) q fun r q' => q' ≠ .untouched ∧ ∃ reply, r = .ok reply :=
  .ask ⟨.inr htarget, hcreates⟩ fun reply => ⟨Contact.after_target htarget _, reply, rfl⟩

theorem obeys_stopService :
    (stopService settings i serviceName deployPreset (serviceEmit i)).Obeys
      (addressing (lifecycleTarget settings serviceName deployPreset)) q
      fun _ q' => q' ≠ .untouched := by
  have hlog : ∀ (target : Addressee) (q : Contact) (line : JsString),
      Program.Steady (addressing target) q (sendLog (serviceEmit i) i
        (toDockerName settings.casing serviceName) .lifecycle line) := fun _ _ line =>
    steady_lifecycleLog (fun _ => rfl) _ line
  unfold stopService
  dsimp only
  refine Program.Obeys.tryCatch (?_ : Program.Obeys _ _ _ fun _ q' => q' ≠ .untouched)
    (fun _ _ h => h) ?_
  · refine (hlog _ q _).before fun _ => ?_
    refine obeys_byPreset settings serviceName deployPreset (by decide) hlog
      (obeys_targetCall rfl trivial) ?_
    intro target q' hq'
    refine (steady_serviceStatus (by decide)).before fun _ => ?_
    exact (hlog target q' _).mono fun _ _ h => h.1 ▸ hq'
  · intro e q' hq'
    refine (steady_serviceStatus (by decide)).before fun _ => ?_
    exact (hlog _ q' _).mono fun _ _ h => h.1 ▸ hq'

theorem obeys_restartService :
    (restartService settings i serviceName deployPreset (serviceEmit i)).Obeys
      (addressing (lifecycleTarget settings serviceName deployPreset)) q
      fun _ q' => q' ≠ .untouched := by
  have hlog : ∀ (target : Addressee) (q : Contact) (line : JsString),
      Program.Steady (addressing target) q (sendLog (serviceEmit i) i
        (toDockerName settings.casing serviceName) .lifecycle line) := fun _ _ line =>
    steady_lifecycleLog (fun _ => rfl) _ line
  unfold restartService
  dsimp only
  refine Program.Obeys.tryCatch (?_ : Program.Obeys _ _ _ fun _ q' => q' ≠ .untouched)
    (fun _ _ h => h) ?_
  · refine (steady_serviceStatus (by decide)).before fun _ => ?_
    refine (hlog _ q _).before fun _ => ?_
    refine obeys_byPreset settings serviceName deployPreset (by decide) hlog
      (obeys_targetCall rfl trivial) ?_
    intro target q' hq'
    refine (steady_serviceStatus (by decide)).before fun _ => ?_
    exact (hlog target q' _).mono fun _ _ h => h.1 ▸ hq'
  · intro e q' hq'
    refine (steady_serviceStatus (by decide)).before fun _ => ?_
    exact (hlog _ q' _).mono fun _ _ h => h.1 ▸ hq'

/-- A call about no container. -/
theorem idles_other {c : Call} (hother : callAddressee c = none) (hcreates : CreatesNothing c) :
    (addressing target).Idles q (.call c) :=
  ⟨⟨.inl hother, hcreates⟩, fun _ => Contact.after_other hother _⟩

/-- What is left to do does not matter to the target. -/
theorem obeys_idly {α : Type} {p : Agent α} (h : p.All ((addressing target).Idles q))
    {post : Except JsError α → Contact → Prop} (hpost : ∀ r, post r q) :
    p.Obeys (addressing target) q post := by
  refine h.obeys.mono ?_
  rintro r q' rfl
  exact hpost r

theorem obeys_listByLabel (project : JsString) :
    (listByLabel settings project).Obeys (addressing (.project project)) q
      fun _ q' => q' ≠ .untouched := by
  unfold listByLabel DockerCli.runSync
  refine obeys_targetThen (commandAddressee_projectPs project) trivial fun result q' hq' => ?_
  split_ifs
  · exact .pure hq'
  · exact obeys_idly (.bind (all_await _ _) fun _ => .pure _) fun _ => hq'

theorem obeys_getContainerSnapshot :
    (Docker.getContainerSnapshot settings (toDockerName settings.casing serviceName)
      deployPreset).Obeys (addressing (lifecycleTarget settings serviceName deployPreset)) q
        fun _ q' => q' ≠ .untouched := by
  unfold Docker.getContainerSnapshot
  rw [lifecycleTarget]
  cases isComposePreset settings.casing deployPreset with
  | true =>
      rw [if_pos rfl, if_pos rfl]
      unfold listComposeContainers DockerCli.runSync
      refine (Program.Steady.ask (idles_other (c := .existsSync _) rfl trivial)).before
        fun (found : Bool) => ?_
      cases found with
      | false => exact obeys_listByLabel settings _
      | true =>
          refine obeys_targetThen (commandAddressee_composePs _) trivial
            fun (result : CliResult) q' hq' => ?_
          dsimp only
          split_ifs
          · exact obeys_idly (.bind (all_await _ _) fun _ => .pure _) fun _ => hq'
          · exact obeys_listByLabel settings _
  | false =>
      rw [if_neg Bool.false_ne_true, if_neg Bool.false_ne_true]
      unfold inspectDockerfileContainer DockerCli.runSync
      refine obeys_targetThen (commandAddressee_inspect _) trivial
        fun (result : CliResult) q' hq' => ?_
      split_ifs
      · exact .pure hq'
      · exact obeys_idly (all_await _ _) fun _ => hq'

/-! ## The deletion -/

/-- The target is gone when the part ends with a value. -/
def LeavesNone {α : Type} (r : Except JsError α) (q : Contact) : Prop :=
  q ≠ .untouched ∧ ((∃ a, r = .ok a) → q = .removed)

theorem obeys_removeServiceContainer {name : JsString} {log : JsString → Agent Unit}
    (hlog : ∀ q line, Program.Steady (addressing (.container name)) q (log line)) :
    (removeServiceContainer name log).Obeys (addressing (.container name)) q LeavesNone := by
  have hthrows : ∀ (e : JsError) (q' : Contact), q' ≠ .untouched →
      LeavesNone (α := Unit) (.error e) q' := fun e q' hq' => ⟨hq', fun h => nomatch h.choose_spec⟩
  have hremove : ∀ (_ : Unit) (q' : Contact), (do
      await (← call (.removeContainer name))
      log (about (js "Container ") name (js " removed.")) : Agent Unit).Obeys
        (addressing (.container name)) q' LeavesNone := by
    intro _ q'
    have hremoves : (Addressee.container name).removedBy (.removeContainer name) = true :=
      decide_eq_true rfl
    refine .askThen ⟨.inr rfl, trivial⟩ fun (reply : Except JsError Unit) => ?_
    cases reply with
    | ok _ =>
        have hnext : (addressing (.container name)).next q' (.call (.removeContainer name))
            (.ok ()) = .removed := Contact.after_removal hremoves
        rw [hnext]
        refine obeys_awaitOk ((hlog _ _).mono ?_)
        rintro r q'' ⟨rfl, -⟩
        exact ⟨Contact.noConfusion, fun _ => rfl⟩
    | error e => exact obeys_awaitError (hthrows e _ (Contact.after_target rfl _))
  unfold removeServiceContainer
  refine obeys_targetThen rfl trivial fun (reply : Except JsError Bool) q' hq' => ?_
  cases reply with
  | error e => exact obeys_awaitError (hthrows e q' hq')
  | ok running =>
      refine obeys_awaitOk ?_
      cases running with
      | false => exact hremove () q'
      | true =>
          refine (hlog _ _).before fun _ => ?_
          refine obeys_targetThen rfl trivial fun (reply : Except JsError Unit) q'' hq'' => ?_
          cases reply with
          | error e => exact obeys_awaitError (hthrows e q'' hq'')
          | ok _ => exact obeys_awaitOk (hremove () q'')

theorem removedBy_down (project : JsString) (deleteScope : DeleteScope) :
    (Addressee.project project).removedBy (.run (composeDownArgs project deleteScope) none) =
      true := by
  cases deleteScope with
  | service => exact (Bool.or_eq_true _ _).mpr (.inl (decide_eq_true rfl))
  | containers => exact (Bool.or_eq_true _ _).mpr (.inr (decide_eq_true rfl))

theorem createsNothing_down (project : JsString) (deleteScope : DeleteScope) :
    CreatesNothing (.run (composeDownArgs project deleteScope) none) := by
  cases deleteScope with
  | service => exact createsNothing_verb (by decide)
  | containers => exact createsNothing_verb (by decide)

theorem idles_workspace {c : Call} (h : WorkspaceCall settings c) :
    (addressing target).Idles q (.call c) := by
  cases h with
  | runtime => exact idles_other (c := .existsSync _) rfl trivial
  | root => exact idles_other (c := .mkdirSync _) rfl trivial

/-- Removing files is about no container of a service. -/
theorem idles_clean {dir : JsString} {c : Call} (h : CleanCall settings dir c) :
    (addressing target).Idles q (.call c) := by
  cases h with
  | rmSync => exact idles_other (c := .rmSync _) rfl trivial
  | helper mount _ =>
      have hother : commandAddressee (helperRemovalArgs mount (js "/workspace/" ++
          Path.relative settings.cwd settings.buildRoot dir)) = none := by
        rw [helperRemovalArgs, commandAddressee_run]
      exact idles_other (c := .runSync _ none) hother trivial

theorem idles_log {emit : HubEmit} (hemit : ∀ e, emit (.serviceLog i e) =
    emitToHub (.serviceLog i e)) (containerName line : JsString) :
    (sendLog emit i containerName .lifecycle line).All ((addressing target).Idles q) := by
  apply Program.All.bind (Program.All.ask ⟨trivial, fun _ => rfl⟩)
  intro time
  rw [hemit]
  exact .ask ⟨trivial, fun _ => rfl⟩

theorem obeys_removeService (deleteScope : DeleteScope) :
    (removeService settings (toDockerName settings.casing serviceName)
      (isComposePreset settings.casing deployPreset) deleteScope
      (sendLog (deleteEmit i) i (toDockerName settings.casing serviceName) .lifecycle)).Obeys
        (addressing (lifecycleTarget settings serviceName deployPreset)) q LeavesNone := by
  have hlog : ∀ {target : Addressee} (q : Contact) (line : JsString),
      Program.Steady (addressing target) q (sendLog (deleteEmit i) i
        (toDockerName settings.casing serviceName) .lifecycle line) := fun _ line =>
    steady_lifecycleLog (fun _ => rfl) _ line
  have hgone : ∀ {target : Addressee} (p : Agent Unit),
      p.All ((addressing target).Idles .removed) →
        p.Obeys (addressing target) .removed LeavesNone :=
    fun p h => obeys_idly h fun _ => ⟨Contact.noConfusion, fun _ => rfl⟩
  have hfiles : ∀ {target : Addressee} (_ : Unit),
      (if deleteScope = .service then
        removeBuildDir settings
          (Path.join [settings.buildRoot, toDockerName settings.casing serviceName])
          (sendLog (deleteEmit i) i (toDockerName settings.casing serviceName) .lifecycle)
      else pure () : Agent Unit).All ((addressing target).Idles .removed) := by
    intro target _
    apply all_ite
    · exact all_removeBuildDir settings (fun c h => idles_workspace settings h)
        (fun line => idles_log (fun _ => rfl) _ line) fun c h => idles_clean settings h
    · exact .pure ()
  rw [lifecycleTarget]
  unfold removeService
  cases isComposePreset settings.casing deployPreset with
  | true =>
      rw [if_pos rfl, if_pos rfl]
      refine (obeys_targetRun (commandAddressee_down _ deleteScope)
        (createsNothing_down _ deleteScope) hlog).bind ?_ ?_
      · rintro _ q' ⟨-, hremoved⟩
        obtain rfl := hremoved (removedBy_down _ deleteScope) rfl
        exact hgone _ (hfiles ())
      · rintro e q' ⟨htouched, -⟩
        exact ⟨htouched, fun h => nomatch h.choose_spec⟩
  | false =>
      rw [if_neg Bool.false_ne_true, if_neg Bool.false_ne_true]
      refine (obeys_removeServiceContainer hlog).bind ?_ ?_
      · rintro _ q' ⟨-, hremoved⟩
        obtain rfl := hremoved ⟨_, rfl⟩
        refine hgone _ (all_ite _ ?_ (hfiles ()))
        exact .bind (all_removeServiceImage (fun line => idles_log (fun _ => rfl) _ line)
          (idles_other (c := .removeImage _) rfl trivial)) hfiles
      · rintro e q' ⟨htouched, -⟩
        exact ⟨htouched, fun h => nomatch h.choose_spec⟩

theorem obeys_deleteService (deleteScope : DeleteScope) :
    (deleteService settings i serviceName deployPreset deleteScope (deleteEmit i)).Obeys
      (addressing (lifecycleTarget settings serviceName deployPreset)) q
      fun _ q' => q' ≠ .untouched := by
  have hlog : ∀ {target : Addressee} (q : Contact) (line : JsString),
      Program.Steady (addressing target) q (sendLog (deleteEmit i) i
        (toDockerName settings.casing serviceName) .lifecycle line) := fun _ line =>
    steady_lifecycleLog (fun _ => rfl) _ line
  unfold deleteService
  dsimp only
  refine Program.Obeys.tryCatch (?_ : Program.Obeys _ _ _ fun _ q' => q' ≠ .untouched)
    (fun _ _ h => h) ?_
  · refine (hlog q _).before fun _ => ?_
    refine (obeys_removeService settings serviceName deployPreset deleteScope).bind ?_
      fun _ _ h => h.1
    rintro _ q' ⟨-, hremoved⟩
    obtain rfl := hremoved ⟨_, rfl⟩
    refine (steady_deleteStatus (.inr rfl)).before fun _ => ?_
    exact (hlog _ _).mono fun _ _ h => h.1 ▸ Contact.noConfusion
  · intro e q' hq'
    refine (steady_deleteStatus (.inl (by decide))).before fun _ => ?_
    exact (hlog q' _).mono fun _ _ h => h.1 ▸ hq'

end Operations

end OpticsAgent.Tunnel
