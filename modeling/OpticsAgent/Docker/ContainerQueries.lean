import Mathlib
import OpticsAgent.Docker.ContainerListing

/-!
The queries of `ContainerInspectService` run against a docker that shows some
containers: which of them answers, and that the snapshot has every container
with its name and its status, in the order docker lists them.
-/

namespace OpticsAgent.Docker

open OpticsAgent.Ecma OpticsAgent.Node OpticsAgent.Lib Agent

variable (settings : Settings)

/-! ## Lists -/

section Lists

variable {α β γ ε : Type} {isRow : α → β → Prop} {reads : α → γ → Prop} {f : β → Except ε γ}

/-- Where every row is read, so is the list. -/
theorem mapM_ok_of_forall₂ (hrow : ∀ a b, isRow a b → ∃ c, f b = .ok c ∧ reads a c)
    {items : List α} {rows : List β} (h : List.Forall₂ isRow items rows) :
    ∃ found, rows.mapM f = .ok found ∧ List.Forall₂ reads items found := by
  induction h with
  | nil => exact ⟨[], rfl, .nil⟩
  | cons hfirst _ ih =>
      obtain ⟨c, hc, hreads⟩ := hrow _ _ hfirst
      obtain ⟨found, hfound, hrest⟩ := ih
      refine ⟨c :: found, ?_, .cons hreads hrest⟩
      rw [List.mapM_cons, hc, hfound]
      rfl

end Lists

theorem namedOnly_of_forall₂ {containers : List ComposeContainer} {codeSeen : Bool}
    {service : ComposeContainer → Option JsString} {found : List ContainerState}
    (h : List.Forall₂ (fun c seen => SeenAs c.toContainer codeSeen seen ∧
      seen.service = service c) containers found) : namedOnly found = found := by
  apply List.filter_eq_self.mpr
  intro seen hseen
  induction h with
  | nil => cases hseen
  | @cons c first _ _ hfirst _ ih =>
      rcases List.mem_cons.mp hseen with rfl | hrest
      · simpa [hfirst.1.name] using c.named
      · exact ih hrest

/-! ## The three queries -/

variable {W : Type} {host : Host W} {s : Session W}

/-- A call that changes nothing. -/
theorem run_call_bind {α : Type} {c : Call} {reply : c.Reply}
    (h : host c s.world = (reply, s.world)) (f : c.Reply → Agent α) :
    ∃ t : Session W, t.world = s.world ∧ t.books = s.books ∧
      s.run host (call c >>= f) = t.run host (f reply) := by
  refine ⟨(s.perform host (.call c)).2, ?_, rfl, ?_⟩
  · change (host c s.world).2 = s.world
    rw [h]
  · change Session.run host (f (host c s.world).1) _ = _
    rw [h]

/-- What a container of a project is read into, with or without its exit code. -/
def ReadAs (codeSeen : Bool) (c : ComposeContainer) (seen : ContainerState) : Prop :=
  SeenAs c.toContainer codeSeen seen ∧ seen.service =
    if codeSeen then some c.service
    else ownValue (labelsToRecord (labelsText c.labels)) serviceLabel

theorem run_inspect {serviceName : JsString} {reply : CliResult}
    (hreply : host (.runSync [js "inspect", serviceName] none) s.world = (reply, s.world))
    {containers : List Container}
    (hlists : reply.status = some 0 → Lists InspectRow containers reply) :
    ∃ found, (s.run host (inspectDockerfileContainer settings serviceName)).1 = .ok found ∧
      if reply.status = some 0 then List.Forall₂ (SeenAs · true) containers found
      else found = [] := by
  obtain ⟨t, -, -, hrun⟩ := run_call_bind hreply fun result => if result.status ≠ some 0 then pure []
    else await ((parseJsonOutput result.stdout).mapM (inspectedState settings serviceName))
  change ∃ found, (s.run host (call _ >>= _)).1 = .ok found ∧ _
  rw [hrun]
  by_cases hok : reply.status = some 0
  · obtain ⟨found, hfound, hall⟩ := mapM_ok_of_forall₂
      (fun _ _ h => inspectedState_listed settings serviceName h) (hlists hok)
    refine ⟨found, ?_, ?_⟩
    · rw [if_neg (not_not.mpr hok), hfound]
      rfl
    · rw [if_pos hok]
      exact hall
  · refine ⟨[], ?_, ?_⟩
    · rw [if_pos hok]
      rfl
    · rw [if_neg hok]

/-- The health of a running container is found in its status column. -/
def HealthRead (casing : CaseMapping) (c : ComposeContainer) : Prop :=
  c.state = .running → ∀ elapsed, healthFromStatus casing (.str (c.statusText elapsed)) =
    .ok (c.health.map Health.text)

/-- `docker ps` on the containers of a project. -/
theorem run_listByLabel {project : JsString} {reply : CliResult}
    (hreply : host (.runSync (projectPsArgs project) none) s.world = (reply, s.world))
    {containers : List ComposeContainer} (hhealth : ∀ c ∈ containers, HealthRead settings.casing c)
    (hlists : reply.status = some 0 → Lists PsRow containers reply) :
    ∃ found, (s.run host (listByLabel settings project)).1 = .ok found ∧
      if reply.status = some 0 then List.Forall₂ (ReadAs false) containers found
      else found = [] := by
  obtain ⟨t, -, -, hrun⟩ := run_call_bind hreply fun psResult =>
    if psResult.status ≠ some 0 then pure []
    else do
      let containers ← await ((parseJsonOutput psResult.stdout).mapM (psRow settings))
      pure (namedOnly containers)
  change ∃ found, (s.run host (call _ >>= _)).1 = .ok found ∧ _
  rw [hrun]
  by_cases hok : reply.status = some 0
  · have hrows := (List.forall₂_and_left ..).mpr ⟨hhealth, hlists hok⟩
    obtain ⟨found, hfound, hall⟩ := mapM_ok_of_forall₂
      (fun _ _ h => psRow_listed settings h.2 h.1) hrows
    refine ⟨found, ?_, ?_⟩
    · rw [if_neg (not_not.mpr hok), hfound]
      exact congrArg Except.ok (namedOnly_of_forall₂ hall)
    · rw [if_pos hok]
      exact hall
  · refine ⟨[], ?_, ?_⟩
    · rw [if_pos hok]
      rfl
    · rw [if_neg hok]

/-- The containers of a project, as docker answers about them. -/
structure ShowsProject (host : Host W) (project : JsString) (containers : List ComposeContainer)
    (present : Bool)
    (composePs ps : CliResult) (world : W) : Prop where
  buildDir : host (.existsSync (Path.join [settings.buildRoot, project])) world = (present, world)
  byCompose : present = true → host (.runSync (composePsArgs project)
    (some (Path.join [settings.buildRoot, project]))) world = (composePs, world) ∧
      (composePs.status = some 0 → Lists ComposeRow containers composePs)
  byLabel : host (.runSync (projectPsArgs project) none) world = (ps, world) ∧
    (ps.status = some 0 → Lists PsRow containers ps)

/-- The list `compose ps` gives is taken. -/
def ByCompose (containers : List ComposeContainer) (present : Bool) (composePs : CliResult) :
    Prop :=
  present = true ∧ composePs.status = some 0 ∧ containers ≠ []

theorem rows_ne_nil_iff {α : Type} {isRow : α → JsValue → Prop} {containers : List α}
    {result : CliResult} (h : Lists isRow containers result) :
    parseJsonOutput result.stdout ≠ [] ↔ containers ≠ [] := by
  rw [Lists] at h
  generalize parseJsonOutput result.stdout = rows at h
  cases h with
  | nil => simp
  | cons _ _ => simp

theorem run_listComposeContainers {project : JsString} {containers : List ComposeContainer}
    {present : Bool} {composePs ps : CliResult}
    (hshows : ShowsProject settings host project containers present composePs ps s.world)
    (hhealth : ∀ c ∈ containers, HealthRead settings.casing c) :
    ∃ found, (s.run host (listComposeContainers settings project)).1 = .ok found ∧
      (ByCompose containers present composePs → List.Forall₂ (ReadAs true) containers found) ∧
      (¬ ByCompose containers present composePs →
        if ps.status = some 0 then List.Forall₂ (ReadAs false) containers found
        else found = []) := by
  let dir := Path.join [settings.buildRoot, project]
  have hlabel : ∀ t : Session W, t.world = s.world → ∃ found,
      (t.run host (listByLabel settings project)).1 = .ok found ∧
        if ps.status = some 0 then List.Forall₂ (ReadAs false) containers found
        else found = [] := by
    intro t ht
    apply run_listByLabel settings (s := t) _ hhealth hshows.byLabel.2
    rw [ht]
    exact hshows.byLabel.1
  obtain ⟨t, ht, -, hrun⟩ := run_call_bind hshows.buildDir fun found : Bool =>
    if found then do
      let composeResult ← DockerCli.runSync (composePsArgs project) (some dir)
      let composeRows := parseJsonOutput composeResult.stdout
      if composeResult.status = some 0 ∧ composeRows ≠ [] then
        let containers ← await (composeRows.mapM (composeRow settings))
        pure (namedOnly containers)
      else listByLabel settings project
    else listByLabel settings project
  change ∃ found, (s.run host (call (.existsSync dir) >>= _)).1 = .ok found ∧ _
  rw [hrun]
  cases present with
  | false =>
      obtain ⟨found, hfound, hall⟩ := hlabel t ht
      exact ⟨found, hfound, fun h => absurd h.1 (by decide), fun _ => hall⟩
  | true =>
      obtain ⟨hreply, hlists⟩ := hshows.byCompose rfl
      rw [← ht] at hreply
      obtain ⟨u, hu, -, hcompose⟩ := run_call_bind hreply fun composeResult =>
        if composeResult.status = some 0 ∧ parseJsonOutput composeResult.stdout ≠ [] then do
          let containers ← await ((parseJsonOutput composeResult.stdout).mapM (composeRow settings))
          pure (namedOnly containers)
        else listByLabel settings project
      change ∃ found, (t.run host (call _ >>= _)).1 = .ok found ∧ _
      rw [hcompose]
      by_cases hok : composePs.status = some 0 ∧ parseJsonOutput composePs.stdout ≠ []
      · have hne := (rows_ne_nil_iff (hlists hok.1)).mp hok.2
        obtain ⟨found, hfound, hall⟩ : ∃ found,
            (parseJsonOutput composePs.stdout).mapM (composeRow settings) = .ok found ∧
              List.Forall₂ (ReadAs true) containers found :=
          mapM_ok_of_forall₂ (fun _ _ h => composeRow_listed settings h) (hlists hok.1)
        rw [if_pos hok, hfound]
        refine ⟨found, ?_, fun _ => hall, fun h => absurd ⟨rfl, hok.1, hne⟩ h⟩
        exact congrArg Except.ok (namedOnly_of_forall₂ hall)
      · obtain ⟨found, hfound, hall⟩ := hlabel u (hu.trans ht)
        rw [if_neg hok]
        refine ⟨found, hfound, ?_, fun _ => hall⟩
        rintro ⟨-, hstatus, hne⟩
        exact absurd ⟨hstatus, (rows_ne_nil_iff (hlists hstatus)).mpr hne⟩ hok

end OpticsAgent.Docker
