import Mathlib
import OpticsAgent.Docker.DeploySteps
import OpticsAgent.Lib.Protocol
import OpticsAgent.Tunnel.Commands

/-!
The order in which a deployment works. It looks for its marker, shows the
container that is to come, and then removes what is there, clones the
repositories one by one, finds the directory to build in and sets its
permissions. Then it either brings a compose project up or builds an image and
starts one container, and looks at what came up. What fails on the way is
reported and ends the work.
-/

namespace OpticsAgent.Tunnel

open OpticsAgent.Ecma OpticsAgent.Node OpticsAgent.Lib OpticsAgent.Docker OpticsAgent.Docker.Agent
open OpticsAgent.Service

/-- A deployment, from what is due at its start. Log lines, updates of the rows and
readings of the clock may come in between. -/
def pipeline (settings : Settings) (data : DeployCommand) : Protocol Op Op.Reply Due where
  admits due
    | .books .now => True
    | .books .turn => due.yields = true
    | .books (.sendUpdate j ..) => j = data.serviceIndex
    | .books (.emit emission) => emission.serviceIndex = data.serviceIndex ∧ due.tells emission
    | .books (.findMarker j container ..) =>
        j = data.serviceIndex ∧ container = data.serviceName ∧ due = .marker
    | .books (.createMarker marker) => marker.serviceIndex = data.serviceIndex ∧ due = .newMarker
    | .books (.track j service) => j = data.serviceIndex ∧
        service = ⟨data.dockerName settings, data.deployPreset⟩ ∧
        ∃ occasion, due = .showing occasion .track
    | .books (.storeSnapshot snapshot) =>
        (∃ containers, snapshot = snapshotFromContainers data.serviceIndex containers) ∧
        ∃ occasion, due = .showing occasion .store
    | .books _ => False
    | .call c => due.calls settings data c
  next due
    | .books (.findMarker ..), reply =>
        match (reply : Except JsError Bool) with
        | .ok true => .showing .greeting .track
        | .ok false => .newMarker
        | .error _ => .rejected
    | .books (.createMarker _), reply =>
        if succeeds (α := Unit) reply then .markerTold else .rejected
    | .books (.emit (.serviceLogMarkers ..)), _ => .showing .greeting .track
    | .books (.emit (.serviceStatus _ status)), _ => (due.report status).getD due
    | .books (.emit (.containerStatus _)), _ => due.told
    | .books (.track ..), _ => due.tracked
    | .books (.storeSnapshot snapshot), _ => due.stored snapshot
    | .books _, _ => due
    | .call c, reply => due.after settings data c reply

-- The programs below decide on texts; their branches are not to be evaluated.
attribute [local irreducible] Program.All Program.Obeys leaves

/-! ## Replies and processes -/

section Steps

variable {Q : Type} {P : Protocol Op Op.Reply Q} {q : Q} {α β : Type} {f : α → Agent β}
  {post : Except JsError β → Q → Prop}

theorem obeys_awaitOk {a : α} (h : (f a).Obeys P q post) :
    (await (.ok a) >>= f).Obeys P q post := h

theorem obeys_awaitError {e : JsError} (h : post (.error e) q) :
    (await (.error e) >>= f).Obeys P q post :=
  (Program.Obeys.throw h : (throw e : Agent β).Obeys P q post)

/-- A reply that is waited for, and what comes behind it. -/
theorem obeys_awaitThen {next : Except JsError α → Q}
    (hok : ∀ a, (f a).Obeys P (next (.ok a)) post)
    (herror : ∀ e, post (.error e) (next (.error e))) (reply : Except JsError α) :
    (await reply >>= f).Obeys P (next reply) post := by
  cases reply with
  | ok a => exact obeys_awaitOk (hok a)
  | error e => exact obeys_awaitError (herror e)

theorem steady_forEachLine {sendLine : JsString → Agent Unit}
    (hline : ∀ line, Program.Steady P q (sendLine line)) (lines : List JsString) :
    Program.Steady P q (forEachLine sendLine lines) := by
  induction lines with
  | nil => exact .pure q ()
  | cons line rest ih => exact (hline line).bind fun _ => ih

theorem obeys_dockerCliRun {args : List JsString} {cwd : Option JsString} {label : JsString}
    {sendLine : JsString → Agent Unit} {post : Except JsError Unit → Q → Prop}
    (hadmits : P.admits q (.call (.run args cwd)))
    (hline : ∀ process line,
      Program.Steady P (P.next q (.call (.run args cwd)) process) (sendLine line))
    (hok : ∀ process, (Call.run args cwd).succeeds process = true →
      post (.ok ()) (P.next q (.call (.run args cwd)) process))
    (herror : ∀ process e, (Call.run args cwd).succeeds process = false →
      post (.error e) (P.next q (.call (.run args cwd)) process)) :
    (DockerCli.run args label cwd sendLine).Obeys P q post := by
  unfold DockerCli.run
  refine Program.Obeys.askThen hadmits fun process => ?_
  refine (steady_forEachLine (hline process) _).before fun _ => ?_
  split
  · rename_i e hending
    exact .throw (herror process e (by simp [Call.succeeds, hending]))
  · rename_i code hending
    split_ifs with hcode
    · exact .pure (hok process (by simp [Call.succeeds, hending, hcode]))
    · exact .throw (herror process _ (by simp [Call.succeeds, hending, hcode]))

end Steps

/-! ## The steps of a deployment -/

section Deployment

variable {settings : Settings} {data : DeployCommand} {due : Due} {log : JsString → Agent Unit}

/-- A part that ends as said, or halts the deployment. -/
def OrHalts {α : Type} (ok : α → Due → Prop) : Except JsError α → Due → Prop
  | .ok a, due => ok a due
  | .error _, due => due = .halted

/-- The next part of a deployment. -/
theorem obeys_then {α β : Type} {p : Agent α} {f : α → Agent β} {ok : α → Due → Prop}
    {ok' : β → Due → Prop} (hp : p.Obeys (pipeline settings data) due (OrHalts ok))
    (hf : ∀ a due', ok a due' → (f a).Obeys (pipeline settings data) due' (OrHalts ok')) :
    (p >>= f).Obeys (pipeline settings data) due (OrHalts ok') :=
  hp.bind hf fun _ _ h => h

theorem obeys_callThen {β : Type} {c : Call} {f : c.Reply → Agent β}
    {post : Except JsError β → Due → Prop} (hcalls : due.calls settings data c)
    (hf : ∀ reply, (f reply).Obeys (pipeline settings data) (due.after settings data c reply)
      post) : (call c >>= f).Obeys (pipeline settings data) due post :=
  .askThen hcalls hf

theorem steady_deployLog (due : Due) (line : JsString) :
    Program.Steady (pipeline settings data) due
      (sendLog deployEmit data.serviceIndex (data.dockerName settings) .deploy line) :=
  (Program.Steady.ask ⟨trivial, fun _ => rfl⟩).bind fun _ =>
    .ask ⟨⟨rfl, trivial⟩, fun _ => rfl⟩

variable (hlog : ∀ due line, Program.Steady (pipeline settings data) due (log line))

theorem dockerName_idem :
    toDockerName settings.casing (data.dockerName settings) = data.dockerName settings :=
  toDockerName_idem settings.casing data.serviceName

/-! ## What is there -/

include hlog in
theorem obeys_removeExistingContainer :
    (removeExistingContainer settings (data.dockerName settings) log).Obeys
      (pipeline settings data) .inspect fun r due => r = .ok () ∧ due = .clear := by
  unfold removeExistingContainer
  dsimp only
  rw [dockerName_idem]
  refine Program.Obeys.tryCatch (?_ : Program.Obeys _ _ _ fun _ due => due = .clear)
    (fun _ _ h => ⟨rfl, h⟩) ?_
  · have hremove : ∀ _ : Unit, (do
        log (about (js "Removing existing container ") (data.dockerName settings) (js "..."))
        await (← call (.removeContainer (data.dockerName settings))) : Agent Unit).Obeys
          (pipeline settings data) .remove fun _ due => due = .clear := by
      intro _
      refine (hlog _ _).before fun _ => ?_
      refine obeys_callThen rfl fun (reply : Except JsError Unit) => ?_
      cases reply with
      | ok _ => exact .pure rfl
      | error e => exact .throw rfl
    refine obeys_callThen rfl (obeys_awaitThen (fun running : Bool => ?_) fun _ => rfl)
    cases running with
    | false => exact hremove ()
    | true =>
        refine (hlog _ _).before fun _ => ?_
        exact obeys_callThen rfl (obeys_awaitThen hremove fun _ => rfl)
  · rintro e due rfl
    refine (hlog _ _).mono ?_
    rintro _ _ ⟨rfl, -, rfl⟩
    exact ⟨rfl, rfl⟩

/-! ## The workspace -/

/-- What is due is done in a helper container. -/
def Mounting : Due → Prop
  | .helper | .clone .. => True
  | _ => False

theorem calls_of_mounting (h : Mounting due) {c : Call} (hc : WorkspaceCall settings c) :
    due.calls settings data c := by
  cases due with
  | helper => exact .inl hc
  | clone begun checkout rest => exact .inl hc
  | _ => exact h.elim

theorem after_of_mounting (h : Mounting due) {c : Call} (hc : WorkspaceCall settings c)
    (reply : c.Reply) :
    due.after settings data c reply = if c.succeeds reply then due else .halted := by
  cases due with
  | helper => cases hc <;> rfl
  | clone begun checkout rest => cases hc <;> rfl
  | _ => exact h.elim

theorem steady_isContainerRuntime (h : Mounting due) :
    Program.Steady (pipeline settings data) due (isContainerRuntime settings) := by
  unfold isContainerRuntime
  split_ifs
  · exact .pure _ _
  · exact .ask ⟨calls_of_mounting h .runtime, fun reply => after_of_mounting h .runtime reply⟩

theorem obeys_cloneWorkspaceMount (h : Mounting due) :
    (cloneWorkspaceMount settings).Obeys (pipeline settings data) due
      (OrHalts fun mount due' => settings.Mounts mount ∧ due' = due) := by
  unfold cloneWorkspaceMount
  refine (steady_isContainerRuntime h).before fun inContainer => ?_
  split_ifs
  · exact .pure ⟨.inr rfl, rfl⟩
  · refine obeys_callThen (calls_of_mounting h .root) fun (reply : Except JsError Unit) => ?_
    have hafter : due.after settings data (.mkdirSync settings.buildRoot) reply =
        if (Call.mkdirSync settings.buildRoot).succeeds reply then due else .halted :=
      after_of_mounting h .root reply
    rw [hafter]
    cases reply with
    | ok _ => exact .pure ⟨.inl rfl, rfl⟩
    | error e => exact obeys_awaitError rfl

include hlog in
theorem obeys_removeBuildDir :
    (removeBuildDir settings (data.serviceDir settings) log).Obeys (pipeline settings data) .clear
      (OrHalts fun _ due => due = .sources settings data) := by
  unfold removeBuildDir
  refine obeys_callThen rfl fun (reply : Except JsError Unit) => ?_
  cases reply with
  | ok _ => exact .pure rfl
  | error e =>
      refine (hlog _ _).before fun _ => ?_
      have hafter : Due.clear.after settings data (.rmSync (data.serviceDir settings)) (.error e) =
          if leaves (Path.relative settings.cwd settings.buildRoot (data.serviceDir settings)) then
            .halted
          else .helper := by
        rw [Due.after_clear]
        exact if_neg Bool.false_ne_true
      unfold removeInHelper DockerCli.runSync
      rw [hafter]
      cases hleaves : leaves (Path.relative settings.cwd settings.buildRoot
        (data.serviceDir settings)) with
      | true =>
          rw [toContainerPath_eq, hleaves, if_pos rfl, if_pos rfl]
          exact obeys_awaitError rfl
      | false =>
          rw [toContainerPath_eq, hleaves, if_neg Bool.false_ne_true,
            if_neg Bool.false_ne_true]
          refine obeys_awaitOk (obeys_then (obeys_cloneWorkspaceMount trivial) ?_)
          rintro mount _ ⟨hmount, rfl⟩
          refine obeys_callThen (.inr ⟨mount, hmount, rfl⟩) fun (result : CliResult) => ?_
          rcases eq_or_ne result.status (some 0) with hstatus | hstatus
          · rw [if_neg (not_not.mpr hstatus)]
            exact .pure (if_pos (decide_eq_true hstatus))
          · rw [if_pos hstatus]
            exact .throw (if_neg fun h => hstatus (of_decide_eq_true h))

/-! ## The clones -/

/-- The user a helper container runs as. -/
theorem obeys_dockerRunUserArgs (h : Mounting due) :
    (dockerRunUserArgs settings).Obeys (pipeline settings data) due
      (OrHalts fun userArgs due' => settings.RunsAs userArgs ∧ due' = due) := by
  unfold dockerRunUserArgs
  refine (steady_isContainerRuntime h).before fun inContainer => ?_
  split_ifs
  · exact .pure ⟨.inl rfl, rfl⟩
  · split
    · exact .pure ⟨.inl rfl, rfl⟩
    · rename_i uid gid huser
      exact .pure ⟨.inr ⟨uid, gid, huser, rfl⟩, rfl⟩

include hlog in
theorem obeys_cloneInGitContainer (begun : Bool) (checkout : Checkout) (rest : List Checkout) :
    (cloneInGitContainer settings checkout.url checkout.directory log).Obeys
      (pipeline settings data) (.cloning settings data begun (checkout :: rest))
      (OrHalts fun _ due => due = .cloning settings data true rest) := by
  unfold cloneInGitContainer
  rw [Due.cloning_cons]
  cases hleaves : leaves (Path.relative settings.cwd settings.buildRoot checkout.directory) with
  | true =>
      rw [toContainerPath_eq, hleaves, if_pos rfl, if_pos rfl]
      exact obeys_awaitError rfl
  | false =>
      rw [toContainerPath_eq, hleaves, if_neg Bool.false_ne_true, if_neg Bool.false_ne_true]
      refine obeys_awaitOk (obeys_callThen rfl (obeys_awaitThen (fun _ => ?_) fun _ => rfl))
      refine obeys_then (obeys_cloneWorkspaceMount trivial) ?_
      rintro mount _ ⟨hmount, rfl⟩
      refine (hlog _ _).before fun _ => ?_
      refine obeys_then (obeys_dockerRunUserArgs trivial) ?_
      rintro userArgs _ ⟨huser, rfl⟩
      refine obeys_dockerCliRun (.inr (.run userArgs mount huser hmount))
        (fun _ _ => hlog _ _) ?_ ?_
      · intro process hsucceeds
        exact (Due.after_clone ..).trans (if_pos hsucceeds)
      · intro process e hfails
        exact (Due.after_clone ..).trans
          (if_neg fun h => Bool.noConfusion (h.symm.trans hfails))

include hlog in
theorem obeys_cloneEach (begun : Bool) (url : JsString) (urls : List JsString) :
    (cloneEach settings (data.serviceDir settings) log (url :: urls)).Obeys
      (pipeline settings data)
      (.cloning settings data begun ((url :: urls).map (data.checkoutBelow settings)))
      (OrHalts fun _ due => due = .context settings data) := by
  induction urls generalizing begun url with
  | nil =>
      refine obeys_then (obeys_cloneInGitContainer hlog begun (data.checkoutBelow settings url) [])
        ?_
      rintro _ _ rfl
      exact .pure rfl
  | cons next rest ih =>
      rw [cloneEach, List.map_cons]
      refine obeys_then (obeys_cloneInGitContainer hlog begun (data.checkoutBelow settings url)
        ((next :: rest).map (data.checkoutBelow settings))) ?_
      rintro _ _ rfl
      exact ih true next

include hlog in
theorem obeys_cloneAll :
    (cloneAll settings data.sourceUrl (data.serviceDir settings) log).Obeys (pipeline settings data)
      (.sources settings data)
      (OrHalts fun dir due => dir = data.clonedDir settings ∧ due = .context settings data) := by
  unfold cloneAll
  rcases hurls : (normalizeSourceRepositories data.sourceUrl).map (·.url) with
    - | ⟨url, - | ⟨next, rest⟩⟩
  · have hcheckouts : data.checkouts settings = [] := by
      rw [DeployCommand.checkouts, hurls]
      rfl
    have hsources : Due.sources settings data = .spread := by
      rw [Due.sources, hcheckouts]
      rfl
    rw [hurls, hsources]
    refine obeys_callThen rfl fun (reply : Except JsError Unit) => ?_
    cases reply with
    | error e => exact obeys_awaitError rfl
    | ok _ =>
        have hafter : Due.spread.after settings data (.mkdirSync (data.serviceDir settings))
            (.ok ()) = .halted := by
          rw [Due.after_spread, hcheckouts]
          rfl
        rw [hafter]
        exact obeys_awaitOk ((hlog _ _).before fun _ => .throw rfl)
  · have hcheckouts : data.checkouts settings = [⟨url, data.serviceDir settings⟩] := by
      rw [DeployCommand.checkouts, hurls]
    have hsources : Due.sources settings data =
        .cloning settings data false [⟨url, data.serviceDir settings⟩] := by
      rw [Due.sources, hcheckouts]
      exact if_pos rfl
    rw [hurls, hsources]
    refine obeys_then (obeys_cloneInGitContainer hlog false ⟨url, data.serviceDir settings⟩ []) ?_
    rintro _ _ rfl
    refine (hlog _ _).before fun _ => .pure ⟨?_, rfl⟩
    rw [DeployCommand.clonedDir, hcheckouts]
    rfl
  · have hcheckouts : data.checkouts settings =
        (url :: next :: rest).map (data.checkoutBelow settings) := by
      rw [DeployCommand.checkouts, hurls]
    have hsources : Due.sources settings data = .spread := by
      rw [Due.sources, hcheckouts]
      exact if_neg (by simp)
    rw [hurls, hsources]
    refine obeys_callThen rfl fun (reply : Except JsError Unit) => ?_
    cases reply with
    | error e => exact obeys_awaitError rfl
    | ok _ =>
        have hafter : Due.spread.after settings data (.mkdirSync (data.serviceDir settings))
            (.ok ()) = .cloning settings data false
              ((url :: next :: rest).map (data.checkoutBelow settings)) := by
          rw [Due.after_spread, hcheckouts]
          exact if_pos rfl
        rw [hafter]
        refine obeys_awaitOk (obeys_then (obeys_cloneEach hlog false url (next :: rest)) ?_)
        rintro _ _ rfl
        refine (hlog _ _).before fun _ => .pure ⟨?_, rfl⟩
        rw [DeployCommand.clonedDir, hcheckouts]
        rfl

/-! ## The directory to build in -/

theorem obeys_resolveBuildContext :
    (resolveBuildContext settings (data.clonedDir settings) (primaryRootDirectory data)).Obeys
      (pipeline settings data) (.context settings data)
      (OrHalts fun dir due => dir = data.contextDir settings ∧ due = .permit) := by
  rw [resolveBuildContext_eq, Due.context]
  rcases em (data.cleanRoot = [] ∨ data.cleanRoot = js ".") with hnone | hsome
  · have hcontext : data.contextDir settings = data.clonedDir settings := if_pos hnone
    rw [if_pos hnone, if_pos hnone]
    exact .pure ⟨hcontext.symm, rfl⟩
  · have hcontext : data.contextDir settings =
        Path.resolve settings.cwd (data.clonedDir settings) data.cleanRoot := if_neg hsome
    rw [if_neg hsome, if_neg hsome, ← hcontext]
    cases leaves (Path.relative settings.cwd (data.clonedDir settings)
      (data.contextDir settings)) with
    | true =>
        rw [if_pos rfl, if_pos rfl]
        exact .throw rfl
    | false =>
        rw [if_neg Bool.false_ne_true, if_neg Bool.false_ne_true]
        refine obeys_callThen rfl fun (found : Bool) => ?_
        cases found with
        | false => exact .throw rfl
        | true =>
            refine obeys_callThen rfl (obeys_awaitThen (fun isDirectory : Bool => ?_) fun _ => rfl)
            cases isDirectory with
            | false => exact .throw rfl
            | true => exact .pure ⟨rfl, rfl⟩

theorem obeys_chmodEach (files : List JsString) :
    (chmodEach (data.contextDir settings) files).Obeys (pipeline settings data)
      (.permitting files) (OrHalts fun _ due => due = .composeYml) := by
  induction files with
  | nil => exact .pure rfl
  | cons file rest ih => exact obeys_callThen rfl fun _ => ih

theorem obeys_applyBuildPermissions :
    (applyBuildPermissions (data.contextDir settings)).Obeys (pipeline settings data) .permit
      (OrHalts fun _ due => due = .composeYml) := by
  unfold applyBuildPermissions
  refine obeys_callThen rfl (obeys_awaitThen (fun _ => ?_) fun _ => rfl)
  exact obeys_callThen rfl (obeys_awaitThen obeys_chmodEach fun _ => rfl)

include hlog in
theorem obeys_prepareSources :
    (prepareSources settings (data.dockerName settings) data log).Obeys (pipeline settings data)
      .inspect (OrHalts fun dir due => dir = data.contextDir settings ∧ due = .composeYml) := by
  unfold prepareSources
  dsimp only
  refine (obeys_removeExistingContainer hlog).bind ?_ ?_
  swap
  · rintro e due ⟨h, -⟩
    cases h
  rintro _ _ ⟨-, rfl⟩
  refine obeys_then (obeys_removeBuildDir hlog) ?_
  rintro _ _ rfl
  refine obeys_then (obeys_cloneAll hlog) ?_
  rintro _ _ ⟨rfl, rfl⟩
  refine obeys_then obeys_resolveBuildContext ?_
  rintro _ _ ⟨rfl, rfl⟩
  have hpermissions : ∀ _ : Unit, (do
      applyBuildPermissions (data.contextDir settings)
      pure (data.contextDir settings) : Agent JsString).Obeys (pipeline settings data) .permit
        (OrHalts fun dir due => dir = data.contextDir settings ∧ due = .composeYml) := by
    intro _
    refine obeys_then obeys_applyBuildPermissions ?_
    rintro _ _ rfl
    exact .pure ⟨rfl, rfl⟩
  split_ifs
  · exact (hlog _ _).before hpermissions
  · exact hpermissions ()

theorem obeys_shouldUseCompose :
    (shouldUseCompose settings data.deployPreset (data.contextDir settings)).Obeys
      (pipeline settings data) .composeYml
      (OrHalts fun useCompose due => due = if useCompose then .env else .source) := by
  have hdecides (found : Bool) : (decideCompose settings data found).Obeys
      (pipeline settings data) (.chosen settings data found)
        (OrHalts fun useCompose due => due = if useCompose then .env else .source) := by
    unfold decideCompose Due.chosen
    dsimp only
    split_ifs with hmissing hcompose
    · exact .throw rfl
    · exact .pure (if_pos hcompose).symm
    · exact .pure (if_neg hcompose).symm
  rw [shouldUseCompose_eq]
  unfold hasComposeFile
  rw [Program.bind_bind]
  refine obeys_callThen rfl fun (found : Bool) => ?_
  cases found with
  | true => exact hdecides true
  | false => exact obeys_callThen rfl fun (found : Bool) => hdecides found

/-! ## A compose project -/

/-- `PORT` is always there, so the `.env` file is always written. -/
theorem finalEnv_ne_nil (userEnv : Props JsString) (port : JsString) :
    (if ownValue userEnv (js "PORT") = none then setProp userEnv (js "PORT") port
      else userEnv) ≠ [] := by
  intro hempty
  split_ifs at hempty with hport
  · have hvalue := ownValue_setProp userEnv (js "PORT") port (js "PORT")
    rw [hempty, ownValue_nil, if_pos rfl] at hvalue
    cases hvalue
  · rw [hempty] at hport
    exact hport rfl

theorem obeys_writeEnvFile :
    (writeEnvFile (data.contextDir settings) data).Obeys (pipeline settings data) .env
      (OrHalts fun _ due => due = .services) := by
  unfold writeEnvFile
  dsimp only
  rw [if_neg (finalEnv_ne_nil _ _)]
  refine obeys_callThen ⟨_, rfl⟩ fun (reply : Except JsError Unit) => ?_
  cases reply with
  | ok _ => exact .pure rfl
  | error e => exact .throw rfl

include hlog in
theorem obeys_writeNoRestartOverride :
    (writeNoRestartOverride (data.contextDir settings) log).Obeys (pipeline settings data) .services
      (OrHalts fun _ due => due = .showing .expected .track) := by
  unfold writeNoRestartOverride listServices DockerCli.runSync
  rw [Program.bind_bind]
  refine obeys_callThen rfl fun (result : CliResult) => ?_
  rcases eq_or_ne result.status (some 0) with hstatus | hstatus
  · rw [if_neg (not_not.mpr hstatus)]
    have hafter := Due.after_services settings data (data.contextDir settings) result
    rw [if_pos hstatus] at hafter
    rw [hafter]
    refine obeys_awaitOk ?_
    split_ifs with hempty
    · exact (hlog _ _).before fun _ => .throw rfl
    · refine obeys_callThen ⟨_, rfl⟩ fun (reply : Except JsError Unit) => ?_
      cases reply with
      | error e => exact (hlog _ _).before fun _ => .throw rfl
      | ok _ => exact (hlog _ _).before fun _ => .pure rfl
  · rw [if_pos hstatus]
    have hafter := Due.after_services settings data (data.contextDir settings) result
    rw [if_neg hstatus] at hafter
    rw [hafter]
    dsimp only
    rw [Program.bind_bind]
    exact (hlog _ _).before fun _ => .throw rfl

include hlog in
theorem obeys_deployWithCompose {onExpectedServices : List JsString → Agent Unit}
    (hexpected : ∀ services, (onExpectedServices services).Obeys (pipeline settings data)
      (.showing .expected .track) fun r due => r = .ok () ∧ due = .up) :
    (deployWithCompose (data.dockerName settings) (data.contextDir settings) data log
      onExpectedServices).Obeys (pipeline settings data) .env
        (OrHalts fun _ due => due = .running) := by
  unfold deployWithCompose composeUp
  refine (hlog _ _).before fun _ => ?_
  refine obeys_then obeys_writeEnvFile ?_
  rintro _ _ rfl
  refine obeys_then (obeys_writeNoRestartOverride hlog) ?_
  rintro services _ rfl
  refine (hexpected services).bind ?_ ?_
  · rintro _ _ ⟨-, rfl⟩
    refine obeys_dockerCliRun rfl (fun _ _ => hlog _ _) ?_ ?_
    · exact fun process hsucceeds => if_pos hsucceeds
    · exact fun process e hfails => if_neg fun h => Bool.noConfusion (h.symm.trans hfails)
  · rintro e _ ⟨h, -⟩
    cases h

/-! ## An image and its container -/

include hlog in
theorem obeys_buildImage :
    (buildImage (data.contextDir settings)
      (data.dockerName settings ++ js ":" ++ data.serviceVersion) log).Obeys
        (pipeline settings data) .source (OrHalts fun _ due => due = .starting) := by
  unfold buildImage
  refine obeys_callThen rfl (obeys_awaitThen (fun src : List JsString => ?_) fun _ => rfl)
  have hsource : Due.source.after settings data (.readdirSync (data.contextDir settings))
      (.ok src) = .image src := rfl
  rw [hsource]
  refine obeys_callThen rfl (obeys_awaitThen (fun output : BuildOutput => ?_) fun _ => rfl)
  refine (steady_forEachLine (fun line => hlog _ line) _).before fun _ => ?_
  have hafter : (Due.image src).after settings data (.buildImage (data.contextDir settings)
      src (data.dockerName settings ++ js ":" ++ data.serviceVersion)) (.ok output) =
        if output.failure.isNone then .starting else .halted := rfl
  rw [hafter]
  cases hfailure : output.failure with
  | some e => exact .throw rfl
  | none => exact .pure rfl

theorem obeys_sendStatus {status : ServiceStatus} {due' : Due}
    (hreport : due.report status = some due') :
    (sendStatus deployEmit data.serviceIndex status).Obeys (pipeline settings data) due
      fun r due'' => r = .ok () ∧ due'' = due' := by
  have hnext : (pipeline settings data).next due
      (.books (.emit (.serviceStatus data.serviceIndex status))) () = due' := by
    change (due.report status).getD due = due'
    rw [hreport]
    rfl
  refine .askThen ⟨rfl, Option.isSome_of_eq_some hreport⟩ fun _ => ?_
  rw [hnext]
  refine Program.Steady.before (.ask ⟨trivial, fun _ => rfl⟩) fun _ => ?_
  exact .ask rfl fun _ => ⟨rfl, rfl⟩

/-- The status, and what comes behind it. -/
theorem obeys_reportThen {α : Type} {status : ServiceStatus} {due' : Due} {f : Unit → Agent α}
    {post : Except JsError α → Due → Prop} (hreport : due.report status = some due')
    (hf : (f ()).Obeys (pipeline settings data) due' post) :
    (sendStatus deployEmit data.serviceIndex status >>= f).Obeys (pipeline settings data) due
      post := by
  refine (obeys_sendStatus hreport).bind ?_ ?_
  · rintro _ _ ⟨-, rfl⟩
    exact hf
  · rintro e _ ⟨h, -⟩
    cases h

theorem obeys_runContainer :
    (runContainer settings (data.dockerName settings) data.serviceVersion (resolvePortMappings data)
      data.env).Obeys (pipeline settings data) .create (OrHalts fun _ due => due = .running) := by
  unfold runContainer
  dsimp only
  refine obeys_callThen rfl (obeys_awaitThen (fun _ => ?_) fun _ => rfl)
  refine obeys_callThen (congrArg Call.startContainer dockerName_idem)
    fun (reply : Except JsError Unit) => ?_
  cases reply with
  | ok _ => exact .pure rfl
  | error e => exact .throw rfl

include hlog in
theorem obeys_deployWithDockerfile :
    (deployWithDockerfile settings (data.dockerName settings) (data.contextDir settings) data log
      (sendStatus deployEmit data.serviceIndex)).Obeys (pipeline settings data) .source
        (OrHalts fun _ due => due = .running) := by
  unfold deployWithDockerfile
  refine (hlog _ _).before fun _ => ?_
  refine obeys_then (obeys_buildImage hlog) ?_
  rintro _ _ rfl
  refine (hlog _ _).before fun _ => ?_
  exact obeys_reportThen rfl obeys_runContainer

/-! ## The whole -/

theorem obeys_untilSources :
    (untilSources settings data deployEmit).Obeys (pipeline settings data) .building
      (OrHalts fun dir due => dir = data.contextDir settings ∧ due = .composeYml) := by
  have hlog : ∀ due line, Program.Steady (pipeline settings data) due
      (sendLog deployEmit data.serviceIndex (data.dockerName settings) .deploy line) :=
    steady_deployLog
  refine obeys_reportThen rfl ?_
  refine (hlog _ _).before fun _ => ?_
  exact obeys_prepareSources hlog

theorem obeys_fromSources {onExpectedServices : List JsString → Agent Unit}
    (hexpected : ∀ services, (onExpectedServices services).Obeys (pipeline settings data)
      (.showing .expected .track) fun r due => r = .ok () ∧ due = .up) (useCompose : Bool) :
    (fromSources settings data deployEmit onExpectedServices (data.contextDir settings)
      useCompose).Obeys (pipeline settings data) (if useCompose then .env else .source)
        (OrHalts fun b due => b = true ∧ due = .showing .looked .track) := by
  have hlog : ∀ due line, Program.Steady (pipeline settings data) due
      (sendLog deployEmit data.serviceIndex (data.dockerName settings) .deploy line) :=
    steady_deployLog
  have hdone : ∀ (_ : Unit) (due : Due), due = .running → (do
      sendLog deployEmit data.serviceIndex (data.dockerName settings) .deploy
        (js "Service redeployed successfully.")
      sendStatus deployEmit data.serviceIndex .running
      pure true : Agent Bool).Obeys (pipeline settings data) due
        (OrHalts fun b due => b = true ∧ due = .showing .looked .track) := by
    rintro _ _ rfl
    refine (hlog _ _).before fun _ => ?_
    exact obeys_reportThen rfl (.pure ⟨rfl, rfl⟩)
  cases useCompose with
  | true => exact obeys_then (obeys_deployWithCompose hlog hexpected) hdone
  | false => exact obeys_then (obeys_deployWithDockerfile hlog) hdone

/-- A deployment keeps to the pipeline, and tells truly how it ended. -/
theorem obeys_deploy {onExpectedServices : List JsString → Agent Unit}
    (hexpected : ∀ services, (onExpectedServices services).Obeys (pipeline settings data)
      (.showing .expected .track) fun r due => r = .ok () ∧ due = .up) :
    (deploy settings data deployEmit onExpectedServices).Obeys (pipeline settings data) .building
      fun r due =>
        r = .ok true ∧ due = .showing .looked .track ∨ r = .ok false ∧ due = .failed := by
  have hlog : ∀ due line, Program.Steady (pipeline settings data) due
      (sendLog deployEmit data.serviceIndex (data.dockerName settings) .deploy line) :=
    steady_deployLog
  rw [deploy_eq]
  refine Program.Obeys.tryCatch (?_ : Program.Obeys _ _ _
    (OrHalts fun b due => b = true ∧ due = .showing .looked .track)) ?_ ?_
  · refine obeys_then obeys_untilSources ?_
    rintro _ _ ⟨rfl, rfl⟩
    refine obeys_then obeys_shouldUseCompose ?_
    rintro useCompose _ rfl
    exact obeys_fromSources hexpected useCompose
  · rintro b _ ⟨rfl, rfl⟩
    exact .inl ⟨rfl, rfl⟩
  · rintro e _ rfl
    unfold cleanupFailedDeployment
    refine (hlog _ _).before fun _ => ?_
    refine obeys_reportThen rfl ?_
    refine (hlog _ _).before fun _ => ?_
    exact .pure (.inr ⟨rfl, rfl⟩)

end Deployment

/-! ## The command -/

section Handler

variable (settings : Settings) {data : DeployCommand} {due : Due}

/-- Tracked, kept and told. -/
theorem obeys_show (occasion : Occasion) (containers : List ContainerState) {serviceName : JsString}
    (hname : toDockerName settings.casing serviceName = data.dockerName settings) :
    (do
      trackService settings data.serviceIndex serviceName data.deployPreset
      emitSnapshot (snapshotFromContainers data.serviceIndex containers) : Agent Unit).Obeys
        (pipeline settings data) (.showing occasion .track) fun r due => r = .ok () ∧
          due = Due.told (.showing occasion (.tell
            (snapshotFromContainers data.serviceIndex containers))) := by
  unfold trackService emitSnapshot
  rw [hname]
  refine .askThen ⟨rfl, rfl, occasion, rfl⟩ fun _ => ?_
  refine .askThen ⟨⟨containers, rfl⟩, occasion, rfl⟩ fun _ => ?_
  exact .ask ⟨rfl, occasion, rfl⟩ fun _ => ⟨rfl, rfl⟩

/-- What comes behind a method that is waited for. -/
theorem obeys_awaitedThen {α β : Type} {method : Agent α} {f : α → Agent β}
    {mid : Except JsError α → Due → Prop} {post : Except JsError β → Due → Prop}
    (hmethod : method.Obeys (pipeline settings data) due mid)
    (hyields : ∀ a due', mid (.ok a) due' → due'.yields = true)
    (hok : ∀ a due', mid (.ok a) due' → (f a).Obeys (pipeline settings data) due' post)
    (herror : ∀ e due', mid (.error e) due' → post (.error e) due') :
    (awaited method >>= f).Obeys (pipeline settings data) due post := by
  have hawaited : (awaited method).Obeys (pipeline settings data) due mid := by
    refine hmethod.bind (fun a due' hmid => ?_) fun e due' hmid => hmid
    exact .askThen (hyields a due' hmid) fun _ => .pure hmid
  exact hawaited.bind hok herror

/-- The marker is there, or the database rejected it. -/
def Marks : Except JsError Unit → Due → Prop
  | .ok _, due => due = .showing .greeting .track
  | .error _, due => due = .rejected

theorem obeys_createServiceSessionMarker (event : MarkerEvent) :
    (createServiceSessionMarker data.serviceIndex data.serviceName event).Obeys
      (pipeline settings data) .marker Marks := by
  unfold createServiceSessionMarker
  refine Program.Steady.before (.ask ⟨trivial, fun _ => rfl⟩) fun timestamp => ?_
  refine .askThen ⟨rfl, rfl, rfl⟩ (obeys_awaitThen (fun duplicate : Bool => ?_) fun _ => rfl)
  cases duplicate with
  | true => exact .pure rfl
  | false =>
      refine .askThen ⟨rfl, rfl⟩ (obeys_awaitThen (fun _ => ?_) fun _ => rfl)
      exact .ask ⟨rfl, rfl⟩ fun _ => rfl

theorem obeys_lookAfter (fallback : ContainerStatus) :
    (syncContainerStatus settings data.serviceIndex data.serviceName data.deployPreset
      fallback).Obeys (pipeline settings data) (.showing .looked .track)
        fun _ due => due.Final := by
  have hlooks : (Docker.getContainerSnapshot settings (data.dockerName settings)
      data.deployPreset).All ((pipeline settings data).Idles (.showing .looked .store)) :=
    all_getContainerSnapshot settings (fun c h => ⟨h, fun _ => rfl⟩) _
  unfold Service.syncContainerStatus trackService emitSnapshot
  refine .askThen ⟨rfl, rfl, .looked, rfl⟩ fun _ => ?_
  refine .behind hlooks (fun containers => ?_) fun _ => .inr (.inr (.inl rfl))
  dsimp only
  rw [Program.bind_bind]
  refine .askThen ⟨⟨containers, rfl⟩, .looked, rfl⟩ fun _ => ?_
  refine .askThen ⟨rfl, .looked, rfl⟩ fun _ => ?_
  split_ifs
  · refine .askThen ⟨rfl, rfl⟩ fun _ => ?_
    exact .pure (.inr (.inr (.inr (.inr rfl))))
  · exact .pure (.inr (.inr (.inr (.inl rfl))))

variable (data)

theorem obeys_v1DeployService :
    (v1DeployService settings data deployEmit).Obeys (pipeline settings data) .building
      fun _ due => due.Final := by
  unfold v1DeployService
  refine obeys_awaitedThen settings (obeys_deploy fun services => ?_) ?_ ?_ ?_
  · unfold emitExpectedContainers
    dsimp only
    exact obeys_show settings .expected _ rfl
  · rintro success _ (⟨-, rfl⟩ | ⟨-, rfl⟩)
    · rfl
    · rfl
  · rintro success _ (⟨hr, rfl⟩ | ⟨hr, rfl⟩)
    · obtain rfl := Except.ok.inj hr
      refine (obeys_lookAfter settings _).bind ?_ fun _ _ h => h
      exact fun _ _ h => .pure h
    · obtain rfl := Except.ok.inj hr
      exact .pure (.inr (.inl rfl))
  · rintro e _ (⟨hr, -⟩ | ⟨hr, -⟩)
    · cases hr
    · cases hr

theorem obeys_handleDeploy (event : MarkerEvent) :
    (handleDeploy settings data event).Obeys (pipeline settings data) .marker
      fun _ due => due.Final := by
  unfold handleDeploy
  refine obeys_awaitedThen settings (obeys_createServiceSessionMarker settings event) ?_ ?_
    fun _ _ h => .inl h
  · rintro _ _ rfl
    rfl
  · rintro _ _ rfl
    unfold initContainerStates
    refine (obeys_show settings .greeting _ dockerName_idem).bind ?_ ?_
    · rintro _ _ ⟨-, rfl⟩
      exact obeys_v1DeployService settings data
    · rintro e _ ⟨h, -⟩
      cases h

/-! ## What a deployment leaves alone -/

/-- Behind its marker a deployment leaves the markers and the rows alone, builds
images under the name of its service only, and removes no image. -/
theorem deployStep_v1DeployService :
    (v1DeployService settings data deployEmit).All (DeployStep (data.dockerName settings)) := by
  have hstart : PastMarker .building := trivial
  refine Program.Obeys.all (fun due op hpast hadmits => ?_) hstart
    (obeys_v1DeployService settings data)
  match op with
  | .books .now | .books .turn | .books (.sendUpdate ..) => exact ⟨trivial, fun _ => hpast⟩
  | .books (.track ..) =>
      obtain ⟨-, -, occasion, rfl⟩ := hadmits
      exact ⟨trivial, fun _ => trivial⟩
  | .books (.storeSnapshot snapshot) =>
      obtain ⟨-, occasion, rfl⟩ := hadmits
      exact ⟨trivial, fun _ => trivial⟩
  | .books (.emit (.serviceLog ..)) => exact ⟨trivial, fun _ => hpast⟩
  | .books (.emit (.serviceStatus j status)) =>
      obtain ⟨due', hreport⟩ := Option.isSome_iff_exists.mp hadmits.2
      refine ⟨trivial, fun _ => ?_⟩
      change PastMarker ((due.report status).getD due)
      rw [hreport]
      exact pastMarker_of_busy (busy_report hreport)
  | .books (.emit (.containerStatus snapshot)) =>
      obtain ⟨-, occasion, rfl⟩ := hadmits
      refine ⟨trivial, fun _ => ?_⟩
      cases occasion <;> trivial
  | .books (.emit (.serviceLogMarkers ..)) => exact ⟨trivial, fun _ => trivial⟩
  | .books (.findMarker ..) =>
      obtain ⟨-, -, rfl⟩ := hadmits
      exact hpast.elim
  | .books (.createMarker _) =>
      obtain ⟨-, rfl⟩ := hadmits
      exact hpast.elim
  | .call c =>
      refine ⟨deployStep_of_calls hadmits, fun reply => ?_⟩
      exact pastMarker_of_busy (busy_after hadmits reply)

end Handler

end OpticsAgent.Tunnel
