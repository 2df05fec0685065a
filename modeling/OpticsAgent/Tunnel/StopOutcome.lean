import Mathlib
import OpticsAgent.Docker.ComposeQueries
import OpticsAgent.Tunnel.DeleteOutcome

/-!
The last status of a STOP command. The stop operation reports `stopped`, and the
look at the containers behind it reports again, from their exit codes: a
container that was killed, or that ends with the code of the signal, has failed
there.
-/

namespace OpticsAgent.Tunnel

open OpticsAgent.Ecma OpticsAgent.Lib OpticsAgent.Docker OpticsAgent.Docker.Agent
open OpticsAgent.Service

variable {W : Type} {α β : Type}

/-! ## The last status of the parts of a run -/

theorem lastStatus_append (i : ℤ) (a b : List Emission) :
    lastStatus i (a ++ b) = (lastStatus i b).or (lastStatus i a) := by
  rw [lastStatus, List.filterMap_append, List.getLast?_append]
  rfl

theorem emittedSince_trans {s t u : Session W} (hst : s.books.emitted <+: t.books.emitted)
    (htu : t.books.emitted <+: u.books.emitted) :
    emittedSince s u = emittedSince s t ++ emittedSince t u := by
  obtain ⟨more, hmore⟩ := hst
  obtain ⟨rest, hrest⟩ := htu
  rw [emittedSince, emittedSince, emittedSince, ← hrest, List.drop_left, ← hmore,
    List.drop_left, List.append_assoc, List.drop_left]

/-- From `s` the program comes to `t` with this value, and `status` is the last
it reported on the way. -/
structure Leads (host : Host W) (i : ℤ) (p : Agent α) (s : Session W) (a : α) (t : Session W)
    (status : Option ServiceStatus) : Prop where
  run : s.run host p = (.ok a, t)
  status : lastStatus i (emittedSince s t) = status

/-- Operations that report no status of service `i`. -/
def Quiet (i : ℤ) : Op → Prop
  | .books (.emit emission) => statusOf i emission = none
  | _ => True

variable {host : Host W} {i : ℤ}

theorem lastStatus_of_quiet {p : Agent α} (h : p.All (Quiet i)) (s : Session W) :
    lastStatus i (emittedSince s (s.run host p).2) = none := by
  have hnone : (emittedSince s s).filterMap (statusOf i) = [] := by
    rw [emittedSince, List.drop_length]
    rfl
  have hall : (emittedSince s (s.run host p).2).filterMap (statusOf i) = [] ∧
      s.books.emitted <+: (s.run host p).2.books.emitted := by
    refine Program.All.run_invariant (Session.perform host)
      (fun t => (emittedSince s t).filterMap (statusOf i) = [] ∧
        s.books.emitted <+: t.books.emitted) ?_ h ⟨hnone, List.prefix_rfl⟩
    intro op t hop ht
    cases op with
    | call c => exact ht
    | books op =>
        cases op with
        | emit emission =>
            obtain ⟨hquiet, more, hmore⟩ := ht
            refine ⟨?_, ⟨more ++ [emission], ?_⟩⟩
            · rw [emittedSince, ← hmore, List.drop_left] at hquiet
              change ((t.books.emitted ++ [emission]).drop _).filterMap (statusOf i) = []
              rw [← hmore, List.append_assoc, List.drop_left, List.filterMap_append, hquiet]
              exact List.filterMap_cons_none hop
            · change _ = t.books.emitted ++ [emission]
              rw [← hmore, List.append_assoc]
        | _ => exact ht
  rw [lastStatus, hall.1]
  rfl

namespace Leads

theorem bind {p : Agent α} {f : α → Agent β} {s t u : Session W} {a : α} {b : β}
    {first second : Option ServiceStatus} (hp : Leads host i p s a t first)
    (hf : Leads host i (f a) t b u second) :
    Leads host i (p >>= f) s b u (second.or first) := by
  have hvalue : (s.run host p).1 = .ok a := congrArg Prod.fst hp.run
  have hst : (s.run host p).2 = t := congrArg Prod.snd hp.run
  have htu : (t.run host (f a)).2 = u := congrArg Prod.snd hf.run
  constructor
  · rw [Session.run, Program.run_bind_of_ok hvalue]
    change Session.run host (f a) (s.run host p).2 = _
    rw [hst]
    exact hf.run
  · have hgrown := hst ▸ emitted_grows host p s
    have hgrown' := htu ▸ emitted_grows host (f a) t
    rw [emittedSince_trans hgrown hgrown', lastStatus_append, hf.status, hp.status]

/-- Nothing is reported by the first part. -/
theorem quietly {p : Agent α} {f : α → Agent β} {s t u : Session W} {a : α} {b : β}
    {status : Option ServiceStatus} (hp : Leads host i p s a t none)
    (hf : Leads host i (f a) t b u status) : Leads host i (p >>= f) s b u status := by
  have hboth := hp.bind hf
  rwa [Option.or_none] at hboth

/-- Nothing is reported by the second part. -/
theorem thenQuiet {p : Agent α} {f : α → Agent β} {s t u : Session W} {a : α} {b : β}
    {status : Option ServiceStatus} (hp : Leads host i p s a t status)
    (hf : Leads host i (f a) t b u none) : Leads host i (p >>= f) s b u status := by
  have hboth := hp.bind hf
  rwa [Option.none_or] at hboth

theorem awaited {p : Agent α} {s t : Session W} {a : α} {status : Option ServiceStatus}
    (h : Leads host i p s a t status) : Leads host i (Agent.awaited p) s a t status :=
  ⟨(Session.run_awaited host p s).trans h.run, h.status⟩

variable (host) in
/-- What is calm and reports no status leaves docker as it is. -/
theorem calm {p : Agent α} (hcalm : Calm p) (hquiet : p.All (Quiet i)) (s : Session W) :
    ∃ a t, Leads host i p s a t none ∧ t.world = s.world := by
  obtain ⟨a, ha⟩ := hcalm.completes host s
  refine ⟨a, (s.run host p).2, ⟨Prod.ext ha rfl, lastStatus_of_quiet hquiet s⟩, ?_⟩
  exact (Session.same_of_booksOnly host hcalm.booksOnly (s := s) (t := s) ⟨rfl, rfl⟩).world

variable (host) in
theorem call (c : Call) (s : Session W) :
    ∃ t, Leads host i (Agent.call c) s (host c s.world).1 t none ∧
      t.world = (host c s.world).2 := by
  refine ⟨(s.perform host (.call c)).2, ⟨rfl, ?_⟩, rfl⟩
  exact lastStatus_of_quiet (p := Agent.call c) (.ask trivial) s

variable (host) in
theorem emit (emission : Emission) (s : Session W) :
    ∃ t, Leads host i (emitToHub emission) s () t (statusOf i emission) ∧ t.world = s.world := by
  refine ⟨(s.perform host (.books (.emit emission))).2, ⟨rfl, ?_⟩, rfl⟩
  change lastStatus i ((s.books.emitted ++ [emission]).drop _) = _
  rw [List.drop_left, lastStatus]
  cases h : statusOf i emission with
  | none => rw [List.filterMap_cons_none h]; rfl
  | some status => rw [List.filterMap_cons_some h]; rfl

/-- A guarded part that does not throw. -/
theorem tryCatch {p : Agent α} {s t : Session W} {a : α} {status : Option ServiceStatus}
    (h : Leads host i p s a t status) (handler : JsError → Agent α) :
    Leads host i (MonadExcept.tryCatch p handler) s a t status := by
  have hvalue : (s.run host p).1 = .ok a := congrArg Prod.fst h.run
  have hst : (s.run host p).2 = t := congrArg Prod.snd h.run
  refine ⟨?_, h.status⟩
  rw [Session.run, Program.run_tryCatch_of_ok hvalue]
  exact Prod.ext rfl hst

end Leads

/-! ## The stop operation -/

variable (settings : Settings)

/-- What docker is asked to do. -/
def stopCall (payload : ServicePayload) : Call :=
  let si := toDockerName settings.casing payload.serviceName
  if isComposePreset settings.casing payload.deployPreset then
    .run [js "compose", js "-p", si, js "stop"] none
  else .stopContainer si

theorem calm_serviceEmit (emission : Emission) : Calm (serviceEmit i emission) := by
  cases emission with
  | serviceLog j entry => exact .emitted _
  | serviceStatus j status => exact .bind (.emitted _) fun _ => .bind (.books _) fun _ => .books _
  | containerStatus snapshot => exact .pure ()
  | serviceLogMarkers j markers => exact .pure ()

theorem quiet_sendLog (containerName line : JsString) :
    (sendLog (serviceEmit i) i containerName .lifecycle line).All (Quiet i) :=
  .bind (.ask trivial) fun _ => .ask rfl

variable (host) in
/-- `sendStatus` of a command, with the write to the row behind it. -/
theorem leads_sendStatus (status : ServiceStatus) (s : Session W) :
    ∃ t, Leads host i (sendStatus (serviceEmit i) i status) s () t (some status) ∧
      t.world = s.world := by
  obtain ⟨t, hemit, ht⟩ := Leads.emit host (i := i) (.serviceStatus i status) s
  have hcalm : Calm (updateServiceStatus i status) := .bind (.books _) fun _ => .books _
  have hquiet : (updateServiceStatus i status).All (Quiet i) :=
    .bind (.ask trivial) fun _ => .ask trivial
  obtain ⟨_, u, hupdate, hu⟩ := Leads.calm host hcalm hquiet t
  have hown : statusOf i (.serviceStatus i status) = some status := if_pos rfl
  rw [hown] at hemit
  exact ⟨u, hemit.thenQuiet hupdate, hu.trans ht⟩

theorem leads_pure (a : α) (s : Session W) : Leads host i (pure a) s a s none := by
  refine ⟨rfl, ?_⟩
  rw [emittedSince, List.drop_length]
  rfl

variable (host) in
theorem leads_sendLog (containerName line : JsString) (s : Session W) :
    ∃ t, Leads host i (sendLog (serviceEmit i) i containerName .lifecycle line) s () t none ∧
      t.world = s.world := by
  obtain ⟨_, t, h, ht⟩ := Leads.calm host
    (Calm.sendLog calm_serviceEmit i containerName .lifecycle line)
    (quiet_sendLog containerName line) s
  exact ⟨t, h, ht⟩

/-- A process that ends with 0 has its lines logged. -/
theorem leads_dockerCliRun {args : List JsString} {cwd : Option JsString} (label : JsString)
    (containerName : JsString) {s : Session W}
    (hok : (Call.run args cwd).succeeds (host (.run args cwd) s.world).1 = true) :
    ∃ t, Leads host i (DockerCli.run args label cwd
      (sendLog (serviceEmit i) i containerName .lifecycle)) s () t none ∧
        t.world = (host (.run args cwd) s.world).2 := by
  obtain ⟨t, hcall, ht⟩ := Leads.call host (i := i) (.run args cwd) s
  let process : CliRun := (host (.run args cwd) s.world).1
  let lines := process.chunks.flatMap fun chunk => outputLines (Node.utf8Text chunk)
  obtain ⟨_, u, hlines, hu⟩ := Leads.calm host
    (Calm.forEachLine (Calm.sendLog (calm_serviceEmit (i := i)) i containerName .lifecycle) lines)
    (all_forEachLine (quiet_sendLog containerName) lines) t
  have hending : CliRun.ending (host (.run args cwd) s.world).1 = .ok (some 0) :=
    ending_of_succeeds hok
  refine ⟨u, ?_, hu.trans ht⟩
  rw [DockerCli.run]
  apply hcall.quietly
  apply hlines.quietly
  rw [hending]
  exact leads_pure () u

variable (host) in
/-- The status of a stop that succeeded, and the line behind it. -/
theorem leads_stopped (si : JsString) (s : Session W) :
    ∃ t, Leads host i (do
      sendStatus (serviceEmit i) i .stopped
      sendLog (serviceEmit i) i si .lifecycle
        (about (js "Service ") si (js " stopped successfully."))) s () t (some .stopped) ∧
      t.world = s.world := by
  obtain ⟨t, hstatus, ht⟩ := leads_sendStatus host (i := i) .stopped s
  obtain ⟨u, hlog, hu⟩ := leads_sendLog host (i := i) si
    (about (js "Service ") si (js " stopped successfully.")) t
  exact ⟨u, hstatus.thenQuiet hlog, hu.trans ht⟩

/-- A stop call that succeeds is reported as `stopped`. -/
theorem leads_stopService (payload : ServicePayload) {s : Session W}
    (hok : (stopCall settings payload).succeeds
      (host (stopCall settings payload) s.world).1 = true) :
    ∃ t, Leads host payload.serviceIndex (stopService settings payload.serviceIndex
      payload.serviceName payload.deployPreset (serviceEmit payload.serviceIndex)) s () t
        (some .stopped) ∧
      t.world = (host (stopCall settings payload) s.world).2 := by
  let si := toDockerName settings.casing payload.serviceName
  obtain ⟨t, hbefore, ht⟩ := leads_sendLog host (i := payload.serviceIndex) si
    (about (js "Stopping service ") si (js "...")) s
  rw [← ht] at hok ⊢
  by_cases hcompose : isComposePreset settings.casing payload.deployPreset = true
  · have hcall : stopCall settings payload = .run [js "compose", js "-p", si, js "stop"] none :=
      if_pos hcompose
    rw [hcall] at hok ⊢
    obtain ⟨u, hrun, hu⟩ := leads_dockerCliRun (js "docker compose stop") si hok
    obtain ⟨v, hstopped, hv⟩ := leads_stopped host si u
    refine ⟨v, ?_, hv.trans hu⟩
    rw [stopService]
    apply Leads.tryCatch
    apply hbefore.quietly
    change Leads host _ (if isComposePreset settings.casing payload.deployPreset = true then _
      else _) _ _ _ _
    rw [if_pos hcompose]
    exact hrun.quietly hstopped
  · have hcall : stopCall settings payload = .stopContainer si := if_neg hcompose
    rw [hcall] at hok ⊢
    obtain ⟨u, hstop, hu⟩ := Leads.call host (i := payload.serviceIndex)
      (.stopContainer si) t
    obtain ⟨v, hstopped, hv⟩ := leads_stopped host (i := payload.serviceIndex) si u
    refine ⟨v, ?_, hv.trans hu⟩
    rw [stopService]
    apply Leads.tryCatch
    apply hbefore.quietly
    change Leads host _ (if isComposePreset settings.casing payload.deployPreset = true then _
      else _) _ _ _ _
    rw [if_neg hcompose]
    apply hstop.quietly
    cases hreply : (host (.stopContainer si) t.world).1 with
    | ok _ => exact (leads_pure () u).quietly hstopped
    | error e =>
        rw [hreply] at hok
        cases hok

/-! ## The look at the containers -/

/-- Docker shows these containers of the service, whichever query the agent
makes. A query that fails says nothing. -/
inductive ShowsService (host : Host W) (serviceName deployPreset : JsString)
    (containers : List Container) (world : W) : Prop where
  | dockerfile (reply : CliResult)
      (hpreset : isComposePreset settings.casing deployPreset = false)
      (hreply : host (.runSync [js "inspect", serviceName] none) world = (reply, world))
      (hlists : reply.status = some 0 → Lists InspectRow containers reply)
  | compose (project : List ComposeContainer) (present : Bool) (composePs ps : CliResult)
      (hpreset : isComposePreset settings.casing deployPreset = true)
      (hcontainers : containers = project.map fun c => c.toContainer)
      (hshows : ShowsProject settings host serviceName project present composePs ps world)

/-- The query that answers has the exit codes: `docker inspect`, or `compose ps`
while the build directory is there. -/
def CodesSeen (host : Host W) (serviceName deployPreset : JsString) (world : W) : Prop :=
  let dir := Node.Path.join [settings.buildRoot, serviceName]
  if isComposePreset settings.casing deployPreset then
    (host (.existsSync dir) world).1 = true ∧
      (host (.runSync (composePsArgs serviceName) (some dir)) world).1.status = some 0
  else (host (.runSync [js "inspect", serviceName] none) world).1.status = some 0

theorem forall₂_seenAs {codeSeen : Bool} {project : List ComposeContainer}
    {found : List ContainerState} (h : List.Forall₂ (ReadAs codeSeen) project found) :
    List.Forall₂ (SeenAs · codeSeen) (project.map fun c => c.toContainer) found := by
  rw [List.forall₂_map_left_iff]
  exact h.imp fun _ _ hread => hread.1

theorem run_getContainerSnapshot {serviceName deployPreset : JsString}
    {containers : List Container} {s : Session W}
    (hshows : ShowsService settings host serviceName deployPreset containers s.world)
    (hexited : ∀ c ∈ containers, c.state = .exited) :
    ∃ found, (s.run host (Docker.getContainerSnapshot settings serviceName deployPreset)).1 =
        .ok found ∧
      (CodesSeen settings host serviceName deployPreset s.world →
        List.Forall₂ (SeenAs · true) containers found) ∧
      (¬ CodesSeen settings host serviceName deployPreset s.world →
        found = [] ∨ List.Forall₂ (SeenAs · false) containers found) := by
  cases hshows with
  | dockerfile reply hpreset hreply hlists =>
      have hseen : CodesSeen settings host serviceName deployPreset s.world ↔
          reply.status = some 0 := by
        rw [CodesSeen, hpreset, hreply]
        exact Iff.rfl
      obtain ⟨found, hfound, hall⟩ := run_inspect settings hreply hlists
      rw [Docker.getContainerSnapshot, hpreset, hseen]
      refine ⟨found, hfound, fun hok => ?_, fun hfails => .inl ?_⟩
      · rwa [if_pos hok] at hall
      · rwa [if_neg hfails] at hall
  | compose project present composePs ps hpreset hcontainers hshows =>
      have hhealth : ∀ c ∈ project, HealthRead settings.casing c := by
        intro c hc hrunning
        have hstate : c.state = .exited := by
          apply hexited
          rw [hcontainers]
          exact List.mem_map_of_mem hc
        rw [hstate] at hrunning
        cases hrunning
      obtain ⟨found, hfound, hby, hnot⟩ := run_listComposeContainers settings hshows hhealth
      have hlabels : ¬ ByCompose project present composePs →
          found = [] ∨ List.Forall₂ (ReadAs false) project found := by
        intro h
        have hps := hnot h
        split_ifs at hps
        · exact .inr hps
        · exact .inl hps
      have hseen : CodesSeen settings host serviceName deployPreset s.world →
          present = true ∧ composePs.status = some 0 := by
        rw [CodesSeen, if_pos hpreset, hshows.buildDir]
        rintro ⟨hpresent, hstatus⟩
        rw [(hshows.byCompose hpresent).1] at hstatus
        exact ⟨hpresent, hstatus⟩
      have hunseen : ¬ CodesSeen settings host serviceName deployPreset s.world →
          ¬ ByCompose project present composePs := by
        rw [CodesSeen, if_pos hpreset, hshows.buildDir]
        rintro h ⟨hpresent, hstatus, -⟩
        apply h
        rw [(hshows.byCompose hpresent).1]
        exact ⟨hpresent, hstatus⟩
      rw [Docker.getContainerSnapshot, hpreset, hcontainers]
      refine ⟨found, hfound, fun h => ?_, fun h => ?_⟩
      · by_cases hempty : project = []
        · subst hempty
          rcases hlabels fun hby => hby.2.2 rfl with hnone | hnone
          · rw [hnone]
            exact .nil
          · rw [List.forall₂_nil_left_iff.mp hnone]
            exact .nil
        · exact forall₂_seenAs (hby ⟨(hseen h).1, (hseen h).2, hempty⟩)
      · exact (hlabels (hunseen h)).imp_right forall₂_seenAs

/-! ## What is reported of stopped containers -/

theorem status_exited {c : Container} (h : c.state = .exited) (codeSeen : Bool) :
    c.status codeSeen = if codeSeen ∧ c.exitCode ≠ 0 then .failed else .stopped := by
  rw [Container.status, h]

theorem status_failed_or_stopped {containers : List Container} {codeSeen : Bool}
    {found : List ContainerState} (hexited : ∀ c ∈ containers, c.state = .exited)
    (h : List.Forall₂ (SeenAs · codeSeen) containers found) :
    (∀ seen ∈ found, seen.status = .failed ∨ seen.status = .stopped) ∧
      ((∀ seen ∈ found, seen.status = .stopped) ↔
        (codeSeen = true → ∀ c ∈ containers, c.exitCode = 0)) := by
  induction h with
  | nil => simp
  | @cons c seen _ _ hfirst _ ih =>
      obtain ⟨hc, hrest⟩ := List.forall_mem_cons.mp hexited
      obtain ⟨hends, hstopped⟩ := ih hrest
      have hstatus : seen.status =
          if codeSeen = true ∧ c.exitCode ≠ 0 then .failed else .stopped := by
        rw [hfirst.status, status_exited hc]
      have hown : seen.status = .stopped ↔ (codeSeen = true → c.exitCode = 0) := by
        rw [hstatus]
        split_ifs with hcode
        · simp [hcode.1, hcode.2]
        · simpa using hcode
      constructor
      · refine List.forall_mem_cons.mpr ⟨?_, hends⟩
        rw [hstatus]
        split_ifs
        · exact .inl rfl
        · exact .inr rfl
      · rw [List.forall_mem_cons, List.forall_mem_cons, hown, hstopped, ← forall_and]

/-- Where every container failed or stopped, the service stopped unless one
failed. -/
theorem aggregateStatus_ended {found : List ContainerState}
    (hends : ∀ seen ∈ found, seen.status = .failed ∨ seen.status = .stopped) :
    aggregateStatus found .stopped = .stopped ↔ ∀ seen ∈ found, seen.status = .stopped := by
  by_cases hempty : found = []
  · simp [aggregateStatus, hempty]
  by_cases hfailed : ∃ seen ∈ found, seen.status = .failed
  · have hany : found.any (·.status = .failed) = true := by
      obtain ⟨seen, hseen, hstatus⟩ := hfailed
      exact List.any_eq_true.mpr ⟨seen, hseen, decide_eq_true hstatus⟩
    rw [aggregateStatus, if_neg hempty, if_pos hany]
    apply iff_of_false
    · simp
    · intro h
      obtain ⟨seen, hseen, hstatus⟩ := hfailed
      cases hstatus.symm.trans (h seen hseen)
  · have hall : ∀ seen ∈ found, seen.status = .stopped := by
      intro seen hseen
      exact (hends seen hseen).resolve_left fun hstatus => hfailed ⟨seen, hseen, hstatus⟩
    have hnone : ∀ status, status ≠ .stopped → found.any (·.status = status) = false := by
      intro status hne
      rw [List.any_eq_false]
      intro seen hseen
      rw [hall seen hseen]
      simpa using hne.symm
    have hnotAll : found.all (·.status = .running) = false := by
      obtain ⟨first, rest, rfl⟩ := List.exists_cons_of_ne_nil hempty
      simp [hall first]
    have hstopped : found.all (fun c => c.status = .stopped || c.status = .removed) = true := by
      rw [List.all_eq_true]
      intro seen hseen
      simp [hall seen hseen]
    rw [aggregateStatus, if_neg hempty, hnone .failed (by decide), hnone .building (by decide),
      hnone .starting (by decide), hnotAll, hstopped]
    exact iff_of_true rfl hall

theorem quiet_of_callsOnly {p : Agent α} (h : p.All CallsOnly) : p.All (Quiet i) := by
  apply h.mono
  intro op hop
  cases op with
  | books op => exact hop.elim
  | call c => trivial

/-- What `syncContainerStatus` reports of the containers it found. -/
def reportedOf (found : List ContainerState) : Option ServiceStatus :=
  if found = [] then none else some (aggregateStatus found .stopped).toServiceStatus

variable (host) in
theorem leads_publish (found : List ContainerState) (s : Session W) :
    ∃ snapshot t, Leads host i (do
      let snapshot := snapshotFromContainers i found
      emitSnapshot snapshot
      if found ≠ [] ∨ ContainerStatus.stopped = .removed then
        emitToHub (.serviceStatus i (aggregateStatus found .stopped).toServiceStatus)
      pure snapshot) s snapshot t (reportedOf found) := by
  have hquiet : (emitSnapshot (snapshotFromContainers i found)).All (Quiet i) :=
    .bind (.ask trivial) fun _ => .ask rfl
  obtain ⟨_, t, hsnapshot, -⟩ := Leads.calm host (calm_emitSnapshot _) hquiet s
  refine ⟨snapshotFromContainers i found, ?_⟩
  by_cases hempty : found = []
  · refine ⟨t, hsnapshot.quietly ?_⟩
    rw [reportedOf, if_pos hempty, if_neg (by simp [hempty])]
    exact leads_pure _ t
  · obtain ⟨u, hemit, -⟩ := Leads.emit host (i := i)
      (.serviceStatus i (aggregateStatus found .stopped).toServiceStatus) t
    have hown : statusOf i (.serviceStatus i (aggregateStatus found .stopped).toServiceStatus) =
        some (aggregateStatus found .stopped).toServiceStatus := if_pos rfl
    rw [hown] at hemit
    refine ⟨u, hsnapshot.quietly ?_⟩
    rw [reportedOf, if_neg hempty, if_pos (.inl hempty)]
    exact hemit.thenQuiet (leads_pure _ u)

theorem leads_sync {serviceName deployPreset : JsString} {containers : List Container}
    {s : Session W}
    (hshows : ShowsService settings host (toDockerName settings.casing serviceName) deployPreset
      containers s.world)
    (hexited : ∀ c ∈ containers, c.state = .exited) :
    ∃ found snapshot t, Leads host i
        (syncContainerStatus settings i serviceName deployPreset .stopped) s snapshot t
          (reportedOf found) ∧
      (∀ seen ∈ found, seen.status = .failed ∨ seen.status = .stopped) ∧
      ((∀ seen ∈ found, seen.status = .stopped) ↔
        (CodesSeen settings host (toDockerName settings.casing serviceName) deployPreset s.world →
          ∀ c ∈ containers, c.exitCode = 0)) := by
  let si := toDockerName settings.casing serviceName
  have htracked : (trackService settings i serviceName deployPreset).All (Quiet i) :=
    .ask trivial
  obtain ⟨_, t, htrack, ht⟩ := Leads.calm host (.books _) htracked s
  rw [← ht] at hshows ⊢
  obtain ⟨found, hfound, hcodes, hnone⟩ := run_getContainerSnapshot settings hshows hexited
  have hlook : Leads host i (Docker.getContainerSnapshot settings si deployPreset) t found
      (t.run host (Docker.getContainerSnapshot settings si deployPreset)).2 none :=
    ⟨Prod.ext hfound rfl, lastStatus_of_quiet
      (quiet_of_callsOnly (callsOnly_getContainerSnapshot settings si deployPreset)) t⟩
  obtain ⟨snapshot, u, hpublish⟩ := leads_publish host (i := i) found
    (t.run host (Docker.getContainerSnapshot settings si deployPreset)).2
  refine ⟨found, snapshot, u, htrack.quietly (hlook.quietly hpublish), ?_⟩
  by_cases hseen : CodesSeen settings host si deployPreset t.world
  · obtain ⟨hends, hstopped⟩ := status_failed_or_stopped hexited (hcodes hseen)
    refine ⟨hends, hstopped.trans ?_⟩
    simp [si, hseen]
  · rcases hnone hseen with rfl | hlabels
    · simp [si, hseen]
    · obtain ⟨hends, hstopped⟩ := status_failed_or_stopped hexited hlabels
      refine ⟨hends, hstopped.trans ?_⟩
      simp [si, hseen]

/-! ## What a STOP ends with -/

/-- A STOP command handled to its end. -/
def stopHandled (host : Host W) (payload : ServicePayload) (world : W) (books : Books) :
    Session W :=
  ((opened world books).run host (handleCommand settings (.stop payload))).2

/-- The session after the first look at the containers. -/
def looked (host : Host W) (payload : ServicePayload) (world : W) (books : Books) :
    Except JsError ContainerSnapshot × Session W :=
  (opened world books).run host (syncContainerStatus settings payload.serviceIndex
    payload.serviceName payload.deployPreset .stopped)

/-- The command gets to the stop call, which succeeds and leaves docker so. -/
structure StopSucceeds (host : Host W) (payload : ServicePayload) (world : W) (books : Books)
    (after : W) : Prop where
  looks : ∃ snapshot, (looked settings host payload world books).1 = .ok snapshot
  stops : (stopCall settings payload).succeeds
    (host (stopCall settings payload) (looked settings host payload world books).2.world).1 = true
  leaves : (host (stopCall settings payload)
    (looked settings host payload world books).2.world).2 = after

theorem reportedOf_stopped_iff (found : List ContainerState) :
    (reportedOf found).or (some .stopped) = some .stopped ↔
      aggregateStatus found .stopped = .stopped := by
  rw [reportedOf]
  split_ifs with hempty
  · simp [aggregateStatus, hempty]
  · cases aggregateStatus found .stopped <;> simp [ContainerStatus.toServiceStatus]

/-- The last status is `stopped` exactly when no container that is seen with its
exit code ended with another than 0. -/
theorem stop_ends_stopped_iff (host : Host W) (payload : ServicePayload) (world after : W)
    (books : Books) (containers : List Container)
    (hpayload : getServiceCommandPayload payload = some payload)
    (hstop : StopSucceeds settings host payload world books after)
    (hshows : ShowsService settings host (toDockerName settings.casing payload.serviceName)
      payload.deployPreset containers after)
    (hexited : ∀ c ∈ containers, c.state = .exited) :
    lastStatus payload.serviceIndex (emittedSince (opened world books)
        (stopHandled settings host payload world books)) = some .stopped ↔
      (CodesSeen settings host (toDockerName settings.casing payload.serviceName)
        payload.deployPreset after → ∀ c ∈ containers, c.exitCode = 0) := by
  obtain ⟨snapshot, hsnapshot⟩ := hstop.looks
  have hlook : Leads host payload.serviceIndex (syncContainerStatus settings
      payload.serviceIndex payload.serviceName payload.deployPreset .stopped)
      (opened world books) snapshot (looked settings host payload world books).2 _ :=
    ⟨Prod.ext hsnapshot rfl, rfl⟩
  obtain ⟨t, hstopped, ht⟩ := leads_stopService settings payload hstop.stops
  rw [← hstop.leaves, ← ht] at hshows
  obtain ⟨found, _, u, hsync, hends, hclean⟩ :=
    leads_sync settings (i := payload.serviceIndex) hshows hexited
  have hrun : Leads host payload.serviceIndex (handleCommand settings (.stop payload))
      (opened world books) () u ((reportedOf found).or (some .stopped)) := by
    have hkept : ∀ first : Option ServiceStatus,
        (reportedOf found).or (some .stopped) =
          ((reportedOf found).or (some .stopped)).or first := by
      intro first
      rw [Option.or_assoc]
      rfl
    rw [handleCommand, withPayload, hpayload, hkept]
    apply hlook.awaited.bind
    apply hstopped.awaited.bind
    exact hsync.thenQuiet (leads_pure () u)
  have hstate : stopHandled settings host payload world books = u := congrArg Prod.snd hrun.run
  rw [hstate, hrun.status, reportedOf_stopped_iff, aggregateStatus_ended hends, hclean, ht,
    hstop.leaves]

/-! ## A worker that is stopped -/

def runningSample : JsString :=
  js "\x7b\"ExitCode\":0,\"Health\":\"\",\"Name\":\"app-worker-1\"" ++
    js ",\"Service\":\"worker\",\"State\":\"running\"\x7d\n"

/-- A docker whose only container runs until it is stopped, and then ends with
this code. The build directory is there. -/
def stoppingHost (code : ℤ) : Host Bool
  | .run _ _, _ => (⟨[], .ok (some 0)⟩, true)
  | .runSync args _, ended =>
      (if args = composePsArgs (js "app") then
        ⟨some 0, if ended then composeSample code else runningSample, []⟩
      else if args = projectPsArgs (js "app") then ⟨some 0, psSample code, []⟩
      else ⟨some 1, [], []⟩, ended)
  | c, ended => (willingAnswer c, ended)

theorem stopSucceeds_sample {code : ℤ}
    (h : (looked hostSettings (stoppingHost code) composeApp false {}).1.toOption.isSome = true) :
    StopSucceeds hostSettings (stoppingHost code) composeApp false {} true := by
  have hcall : stopCall hostSettings composeApp = .run [js "compose", js "-p", js "app",
      js "stop"] none := by
    decide +kernel
  refine ⟨?_, ?_, ?_⟩
  · cases hlooked : (looked hostSettings (stoppingHost code) composeApp false {}).1 with
    | ok snapshot => exact ⟨snapshot, rfl⟩
    | error e =>
        rw [hlooked] at h
        cases h
  · rw [hcall]
    rfl
  · rw [hcall]
    rfl

theorem showsService_sample {code : ℤ} (h : ListsWorker code) :
    ShowsService hostSettings (stoppingHost code) (js "app") composeApp.deployPreset
      [(endedWorker code).toContainer] true := by
  have hpreset : isComposePreset asciiCase composeApp.deployPreset = true := by decide +kernel
  have hother := projectPsArgs_ne (js "app") (js "app")
  refine .compose [endedWorker code] true ⟨some 0, composeSample code, []⟩
    ⟨some 0, psSample code, []⟩ hpreset rfl ⟨rfl, fun _ => ⟨?_, fun _ => h.1⟩, ⟨?_, fun _ => h.2⟩⟩
  · simp only [stoppingHost, if_true]
  · simp only [stoppingHost, if_neg hother, if_true]

theorem stop_ends_stopped_iff_clean :
    lastStatus composeApp.serviceIndex (emittedSince (opened false {})
      (stopHandled hostSettings (stoppingHost 0) composeApp false {})) = some .stopped := by
  have hname : toDockerName asciiCase composeApp.serviceName = js "app" := by decide +kernel
  have hworker : ListsWorker 0 := listsWorker (by simp)
  have hshows := showsService_sample hworker
  rw [← hname] at hshows
  refine (stop_ends_stopped_iff hostSettings (stoppingHost 0) composeApp false true {}
    [(endedWorker 0).toContainer] (by decide +kernel) (stopSucceeds_sample (by decide +kernel))
    hshows ?_).mpr ?_
  · intro c hc
    rw [List.mem_singleton.mp hc]
    rfl
  · intro _ c hc
    rw [List.mem_singleton.mp hc]
    rfl

/-- The stop call succeeds, the killed worker has exited, and the last status is
`failed`. -/
theorem stop_ends_stopped_fails :
    StopSucceeds hostSettings (stoppingHost 137) composeApp false {} true ∧
      ShowsService hostSettings (stoppingHost 137) (js "app") composeApp.deployPreset
        [(endedWorker 137).toContainer] true ∧
      (endedWorker 137).state = .exited ∧
      lastStatus composeApp.serviceIndex (emittedSince (opened false {})
        (stopHandled hostSettings (stoppingHost 137) composeApp false {})) = some .failed :=
  ⟨stopSucceeds_sample (by decide +kernel), showsService_sample (listsWorker (by simp)), rfl,
    by decide +kernel⟩

end OpticsAgent.Tunnel
