import Mathlib
import OpticsAgent.Service.EventOwner
import OpticsAgent.Tunnel.Commands

/-!
What is reported about a service after it was deleted. DELETE empties the
snapshot of the service and reports it removed, but its entry among the tracked
services stays, in its old place. The events of a later container reach the
deleted service as soon as that entry is the first one to claim the container.
-/

namespace OpticsAgent.Tunnel

open OpticsAgent.Ecma OpticsAgent.Lib OpticsAgent.Docker OpticsAgent.Docker.Agent
open OpticsAgent.Service

/-! ## Deletion and what may follow it -/

/-- A DELETE of service `i` ran to its end and reported the service removed. -/
def System.Deleted (s : System) (i : ℤ) : Prop :=
  ∃ k task payload deleteScope, s.tasks[k]? = some task ∧
    task.origin = .command (.delete payload deleteScope) ∧ payload.serviceIndex = i ∧
    task.program.isDone = true ∧
    ∃ report ∈ s.reports, report.task = k ∧ report.emission = .serviceStatus i .removed

variable (settings : Settings)

/-- A run up to the end of a DELETE of service `i`, and a run on from there in
which no command names `i` again. -/
structure AfterDelete (i : ℤ) (s t : System) (events : List Happening) : Prop where
  reached : ∃ before, (serviceSystem settings).run {} before = some s
  deleted : s.Deleted i
  run : (serviceSystem settings).run s events = some t
  unnamed : ∀ c, .command c ∈ events → c.serviceIndex ≠ i

/-- No event of a container that docker had not created at `s` made anything be
reported about service `i` since. -/
def StaysDeleted (i : ℤ) (s t : System) : Prop :=
  ∀ report ∈ t.reports.drop s.reports.length, ∀ container,
    report.origin = .event container → s.nameOf container = none →
      report.emission.serviceIndex ≠ i

/-- An entry of service `i` is the first tracked one that claims the name. -/
def TakenBy (i : ℤ) (tracked : InsertionMap ℤ Service) (containerName : JsString) : Prop :=
  ∃ before service later, tracked.entries = before ++ (i, service) :: later ∧
    Claims settings (i, service) containerName ∧
    ∀ entry ∈ before, ¬ Claims settings entry containerName

/-- An event of a container created since `s` comes when the container is not
taken by the entry of service `i`. -/
def Untaken (i : ℤ) (s t : System) : Happening → Prop
  | .docker container .. => ∀ name, t.nameOf container = some name →
      s.nameOf container = none → ¬ TakenBy settings i t.books.tracked name
  | _ => True

theorem claimant_index_eq_iff {tracked : InsertionMap ℤ Service} {containerName : JsString}
    {found : ℤ × Service} (h : claimant settings tracked containerName = some found) (i : ℤ) :
    found.1 = i ↔ TakenBy settings i tracked containerName := by
  constructor
  · rintro rfl
    obtain ⟨hclaims, before, later, hsplit, hbefore⟩ := List.find?_eq_some_iff_append.mp h
    refine ⟨before, found.2, later, hsplit, hclaims, fun entry hentry hclaim => ?_⟩
    have hno := hbefore entry hentry
    rw [hclaim] at hno
    cases hno
  · rintro ⟨before, service, later, hsplit, hclaims, hbefore⟩
    have hfirst : claimant settings tracked containerName = some (i, service) :=
      InsertionMap.first_eq_of_split hsplit hclaims fun entry hentry =>
        Bool.eq_false_iff.mpr (hbefore entry hentry)
    exact congrArg Prod.fst (Option.some.inj (h.symm.trans hfirst))

/-! ## Tasks -/

theorem settled_about {program : Agent Unit} {j : ℤ} (h : program.All (About j))
    (books : Books) : (System.settled program books).1.All (About j) ∧
      ∀ e ∈ (System.settled program books).2.emitted, e.serviceIndex = j := by
  refine ⟨h.settle _, ?_⟩
  refine Program.All.settle_invariant
    (fun b : Books => ∀ e ∈ b.emitted, e.serviceIndex = j)
    (fun op act b hact hop hb => ?_) h (List.forall_mem_nil _)
  match op with
  | .books (.emit emission) =>
      obtain rfl := Option.some.inj hact
      intro e he
      rcases List.mem_append.mp he with hold | hnew
      · exact hb e hold
      · rw [List.mem_singleton.mp hnew]
        exact hop
  | .books .now | .books (.track ..) | .books .tracked | .books (.storeSnapshot _)
  | .books (.sendUpdate ..) =>
      obtain rfl := Option.some.inj hact
      exact hb
  | .books .turn | .books (.findMarker ..) | .books (.createMarker _) | .books (.deleteMarkers _)
  | .books (.deleteServices _) | .books (.updateServices ..) | .call _ => cases hact

/-- The handler reads the tracked services at once. -/
theorem settled_onStatusEvent (books : Books) (event : DockerStatusEvent) :
    System.settled (onStatusEvent settings event) books =
      System.settled (match claimant settings books.tracked event.containerName with
        | none => pure ()
        | some entry => reportEvent settings entry event) books := rfl

namespace System

variable {i : ℤ} {s t : System}

/-- Every event task belongs to a container docker created. -/
def Known (t : System) : Prop :=
  ∀ task ∈ t.tasks, ∀ container, task.origin = .event container → t.nameOf container ≠ none

/-- Since `s`: reports and containers were only added, and the tasks of newly
created containers are about other services than `i`, as are their reports. -/
structure Fresh (i : ℤ) (s t : System) : Prop where
  kept : s.reports <+: t.reports
  named : ∀ container, s.nameOf container ≠ none → t.nameOf container ≠ none
  silent : StaysDeleted i s t
  elsewhere : ∀ task ∈ t.tasks, ∀ container, task.origin = .event container →
    s.nameOf container = none → ∃ j, j ≠ i ∧ task.program.All (About j)

theorem Known.fresh (h : s.Known) (i : ℤ) : Fresh i s s where
  kept := List.prefix_rfl
  named _ hs := hs
  silent report hreport := by simp at hreport
  elsewhere task htask container horigin hnone := absurd hnone (h task htask container horigin)

/-- More reports, none of them about `i` for a new container. -/
theorem StaysDeleted.append {more : List Report} {t' : System} (hkept : s.reports <+: t.reports)
    (h : StaysDeleted i s t) (hreports : t'.reports = t.reports ++ more)
    (hmore : ∀ report ∈ more, ∀ container, report.origin = .event container →
      s.nameOf container = none → report.emission.serviceIndex ≠ i) : StaysDeleted i s t' := by
  intro report hreport container horigin hnone
  rw [hreports, List.drop_append_of_le_length hkept.length_le] at hreport
  rcases List.mem_append.mp hreport with hold | hnew
  · exact h report hold container horigin hnone
  · exact hmore report hnew container horigin hnone

/-- What a task may be, by its origin. -/
def Allowed (i : ℤ) (s : System) (origin : Origin) (program : Agent Unit) : Prop :=
  ∀ container, origin = .event container → s.nameOf container = none →
    ∃ j, j ≠ i ∧ program.All (About j)

theorem Allowed.settled {origin : Origin} {program : Agent Unit}
    (h : Allowed i s origin program) (books : Books) (k : ℕ) :
    Allowed i s origin (System.settled program books).1 ∧
      ∀ report ∈ reported k origin (System.settled program books).2, ∀ container,
        report.origin = .event container → s.nameOf container = none →
          report.emission.serviceIndex ≠ i := by
  constructor
  · intro container horigin hnone
    obtain ⟨j, hne, hall⟩ := h container horigin hnone
    exact ⟨j, hne, (settled_about hall books).1⟩
  · intro report hreport container horigin hnone
    obtain ⟨e, he, rfl⟩ := List.mem_map.mp hreport
    obtain ⟨j, hne, hall⟩ := h container horigin hnone
    rw [(settled_about hall books).2 e he]
    exact hne

theorem Fresh.spawn (h : Fresh i s t) {origin : Origin} {program : Agent Unit}
    (hallowed : Allowed i s origin program) : Fresh i s (t.spawn origin program) := by
  obtain ⟨hleft, hreports⟩ := hallowed.settled t.books t.tasks.length
  refine ⟨h.kept.trans (List.prefix_append _ _), h.named, ?_, ?_⟩
  · exact StaysDeleted.append h.kept h.silent rfl hreports
  · intro task htask
    rcases List.mem_append.mp htask with hold | hnew
    · exact h.elsewhere task hold
    · rw [List.mem_singleton.mp hnew]
      exact hleft

theorem Fresh.continueWith (h : Fresh i s t) {k : ℕ} {origin : Origin} {program : Agent Unit}
    (hallowed : Allowed i s origin program) (books : Books) :
    Fresh i s (t.continueWith k origin program books) := by
  obtain ⟨hleft, hreports⟩ := hallowed.settled books k
  refine ⟨h.kept.trans (List.prefix_append _ _), h.named, ?_, ?_⟩
  · exact StaysDeleted.append h.kept h.silent rfl hreports
  · intro task htask
    rcases List.mem_or_eq_of_mem_set htask with hold | rfl
    · exact h.elsewhere task hold
    · exact hleft

theorem nameOf_append {container : ContainerId} {entry : ContainerId × JsString}
    (h : t.nameOf container ≠ none) :
    { t with containers := t.containers ++ [entry] }.nameOf container = t.nameOf container := by
  unfold nameOf at *
  rw [List.find?_append]
  cases hfind : t.containers.find? fun entry => entry.1 = container with
  | none => simp [hfind] at h
  | some found => rfl

/-- The ways a step changes the tasks and the reports. -/
theorem step_cases {e : Happening} {t' : System} (h : step settings t e = some t') :
    (∃ c, e = .command c ∧ t' = t.spawn (.command c) (handleCommand settings c)) ∨
    (∃ container name, e = .created container name ∧
      t' = { t with containers := t.containers ++ [(container, name)] }) ∨
    (∃ container event, t.nameOf container = some event.containerName ∧
      e = .docker container event.status event.timestamp event.action event.exitCode ∧
      t' = t.spawn (.event container) (onStatusEvent settings event)) ∨
    (∃ k task op next reply books, t.tasks[k]? = some task ∧ task.program = .perform op next ∧
      Answered t.books k e op reply books ∧
      t' = t.continueWith k task.origin (next reply) books) ∨
    (∃ n done books, e = .updated n done ∧ t' = { t with books := books }) := by
  cases e with
  | command c => exact .inl ⟨c, rfl, (Option.some.inj h).symm⟩
  | created container name =>
      simp only [step] at h
      split at h
      · exact .inr (.inl ⟨container, name, rfl, (Option.some.inj h).symm⟩)
      · cases h
  | docker container status timestamp action exitCode =>
      obtain ⟨name, hname, rfl⟩ := Option.map_eq_some_iff.mp h
      exact .inr (.inr (.inl ⟨container, ⟨status, name, timestamp, action, exitCode⟩, hname,
        rfl, rfl⟩))
  | resume k answer =>
      obtain ⟨task, htask, hresume⟩ := Option.bind_eq_some_iff.mp h
      obtain ⟨op, next, reply, books, hprogram, hreply, ht'⟩ := answered_of_resume hresume
      exact .inr (.inr (.inr (.inl ⟨k, task, op, next, reply, books, htask, hprogram, hreply,
        ht'⟩)))
  | reject k error =>
      obtain ⟨task, htask, hreject⟩ := Option.bind_eq_some_iff.mp h
      obtain ⟨op, next, reply, books, hprogram, hreply, ht'⟩ := answered_of_reject hreject
      exact .inr (.inr (.inr (.inl ⟨k, task, op, next, reply, books, htask, hprogram, hreply,
        ht'⟩)))
  | updated n done =>
      obtain ⟨update, -, ht'⟩ := Option.map_eq_some_iff.mp h
      exact .inr (.inr (.inr (.inr ⟨n, done, _, rfl, ht'.symm⟩)))

theorem Known.step {e : Happening} {t' : System} (ht : t.Known)
    (h : System.step settings t e = some t') : t'.Known := by
  rcases step_cases settings h with ⟨c, -, rfl⟩ | ⟨container, name, -, rfl⟩ |
    ⟨container, event, hname, -, rfl⟩ |
    ⟨k, task, op, next, reply, books, htask, -, -, rfl⟩ | ⟨n, done, books, -, rfl⟩
  · intro task htask container horigin
    rcases List.mem_append.mp htask with hold | hnew
    · exact ht task hold container horigin
    · rw [List.mem_singleton.mp hnew] at horigin
      cases horigin
  · intro task htask container' horigin
    have hold := ht task htask container' horigin
    rw [nameOf_append hold]
    exact hold
  · intro task htask container' horigin
    rcases List.mem_append.mp htask with hold | hnew
    · exact ht task hold container' horigin
    · rw [List.mem_singleton.mp hnew] at horigin
      cases horigin
      exact fun hnone => by cases hname.symm.trans hnone
  · intro task' htask' container horigin
    rcases List.mem_or_eq_of_mem_set htask' with hold | rfl
    · exact ht task' hold container horigin
    · exact ht task (List.mem_of_getElem? htask) container horigin
  · exact ht

theorem Fresh.step {e : Happening} {t' : System} (hfresh : Fresh i s t)
    (hok : Untaken settings i s t e) (h : System.step settings t e = some t') :
    Fresh i s t' := by
  rcases step_cases settings h with ⟨c, -, rfl⟩ | ⟨container, name, -, rfl⟩ |
    ⟨container, event, hname, rfl, rfl⟩ |
    ⟨k, task, op, next, reply, books, htask, hprogram, -, rfl⟩ | ⟨n, done, books, -, rfl⟩
  · refine hfresh.spawn fun container horigin => ?_
    cases horigin
  · refine ⟨hfresh.kept, fun container' hs => ?_, hfresh.silent, hfresh.elsewhere⟩
    have hold := hfresh.named container' hs
    rw [nameOf_append hold]
    exact hold
  · change Fresh i s (t.spawn (.event container)
      (match claimant settings t.books.tracked event.containerName with
        | none => pure ()
        | some entry => reportEvent settings entry event))
    refine hfresh.spawn fun container' horigin hnone => ?_
    cases horigin
    cases hclaimant : claimant settings t.books.tracked event.containerName with
    | none => exact ⟨i + 1, by omega, .pure _⟩
    | some entry =>
        refine ⟨entry.1, fun hindex => ?_, about_reportEvent settings entry event⟩
        exact hok _ hname hnone ((claimant_index_eq_iff settings hclaimant i).mp hindex)
  · refine hfresh.continueWith (fun container horigin hnone => ?_) books
    obtain ⟨j, hne, hall⟩ :=
      hfresh.elsewhere task (List.mem_of_getElem? htask) container horigin hnone
    rw [hprogram] at hall
    exact ⟨j, hne, hall.2 reply⟩
  · exact ⟨hfresh.kept, hfresh.named, hfresh.silent, hfresh.elsewhere⟩

/-! ## The condition on the state -/

theorem reports_step {e : Happening} {t' : System} (h : System.step settings t e = some t') :
    t.reports <+: t'.reports := by
  rcases step_cases settings h with ⟨c, -, rfl⟩ | ⟨container, name, -, rfl⟩ |
    ⟨container, event, -, -, rfl⟩ | ⟨k, task, op, next, reply, books, -, -, -, rfl⟩ |
    ⟨n, done, books, -, rfl⟩
  · exact List.prefix_append _ _
  · exact List.prefix_rfl
  · exact List.prefix_append _ _
  · exact List.prefix_append _ _
  · exact List.prefix_rfl

theorem reports_run {events : List Happening} {t' : System}
    (h : (serviceSystem settings).run t events = some t') : t.reports <+: t'.reports := by
  induction events generalizing t with
  | nil =>
      obtain rfl := Option.some.inj h
      exact List.prefix_rfl
  | cons e rest ih =>
      obtain ⟨u, hu, hrest⟩ := Machine.run_cons h
      exact (reports_step settings hu).trans (ih hrest)

theorem emitted_settle (p : Agent Unit) (books : Books) :
    books.emitted <+: (p.settle memory books).2.emitted := by
  induction p generalizing books with
  | pure a => exact List.prefix_rfl
  | throw e => exact List.prefix_rfl
  | perform op next ih =>
      match op with
      | .books (.emit emission) =>
          exact (List.prefix_append books.emitted [emission]).trans
            (ih () (Books.perform (.emit emission) books).2)
      | .books .now => exact ih _ (Books.perform .now books).2
      | .books (.track i service) => exact ih () (Books.perform (.track i service) books).2
      | .books .tracked => exact ih books.tracked books
      | .books (.storeSnapshot snapshot) =>
          exact ih () (Books.perform (.storeSnapshot snapshot) books).2
      | .books (.sendUpdate i status lastOnline) =>
          exact ih () (Books.perform (.sendUpdate i status lastOnline) books).2
      | .books .turn | .books (.findMarker ..) | .books (.createMarker _)
      | .books (.deleteMarkers _) | .books (.deleteServices _) | .books (.updateServices ..)
      | .call _ => exact List.prefix_rfl

/-- An event whose container is taken by service `i` is reported under `i`. -/
theorem reported_of_takenBy (container : ContainerId) {event : DockerStatusEvent}
    (htaken : TakenBy settings i t.books.tracked event.containerName) :
    ∃ more, (t.spawn (.event container) (onStatusEvent settings event)).reports =
        t.reports ++ more ∧
      ∃ r ∈ more, r.origin = .event container ∧ r.emission.serviceIndex = i := by
  obtain ⟨before, service, later, hsplit, hclaims, hbefore⟩ := htaken
  have hfirst : claimant settings t.books.tracked event.containerName = some (i, service) :=
    InsertionMap.first_eq_of_split hsplit hclaims fun entry hentry =>
      Bool.eq_false_iff.mpr (hbefore entry hentry)
  have hsettled := settled_onStatusEvent settings t.books event
  rw [hfirst] at hsettled
  refine ⟨reported t.tasks.length (.event container)
    (settled (onStatusEvent settings event) t.books).2, rfl, ?_⟩
  rw [hsettled]
  have hlog := (emitted_settle (do
      let _ ← syncContainerStatus settings i service.serviceName service.deployPreset .stopped)
    { t.books with emitted := [] ++ [.serviceLog i
      { log := lifecycleMessage event
        timestamp := event.timestamp
        stream := .lifecycle
        containerName := event.containerName
        stderr := event.status = .failed }] }).subset
    (List.mem_append_right _ (List.mem_singleton.mpr rfl))
  exact ⟨_, List.mem_map_of_mem hlog, rfl, rfl⟩

end System

/-- After a DELETE, nothing is reported about the service for a new container
exactly when no event of a new container comes while the service's old entry is
the first one to claim it. -/
theorem deleted_stays_deleted_iff {i : ℤ} {s t : System} {events : List Happening}
    (h : AfterDelete settings i s t events) :
    StaysDeleted i s t ↔ (serviceSystem settings).Along (Untaken settings i s) s events := by
  obtain ⟨first, hfirst⟩ := h.reached
  have hknown : s.Known := Machine.run_invariant (fun _ _ _ hs => hs.step settings)
    (fun task htask => by cases htask) hfirst
  have hfresh {u : System} {events : List Happening}
      (hok : (serviceSystem settings).Along (Untaken settings i s) s events)
      (hrun : (serviceSystem settings).run s events = some u) : System.Fresh i s u :=
    hok.run_invariant (fun _ _ _ hs hok' => hs.step settings hok') (hknown.fresh i) hrun
  constructor
  · intro hstays
    by_contra hnot
    obtain ⟨before, e, later, u, u', -, hbefore, halong, hbad, hstep, hlater⟩ :=
      Machine.exists_of_not_along h.run hnot
    have hu := hfresh halong hbefore
    rcases System.step_cases settings hstep with ⟨c, rfl, -⟩ | ⟨container, name, rfl, -⟩ |
      ⟨container, event, hname, rfl, rfl⟩ |
      ⟨k, _, _, _, _, _, _, _, hanswered, _⟩ | ⟨n, done, _, rfl, _⟩
    · exact hbad trivial
    · exact hbad trivial
    · simp only [Untaken, not_forall, not_not] at hbad
      obtain ⟨name, hname', hnone, htaken⟩ := hbad
      obtain rfl := Option.some.inj (hname.symm.trans hname')
      obtain ⟨more, hmore, r, hr, horigin, hindex⟩ :=
        System.reported_of_takenBy settings container htaken
      have hgrows : (u.spawn (.event container) (onStatusEvent settings event)).reports <+:
          t.reports := System.reports_run settings hlater
      obtain ⟨rest, hrest⟩ := hgrows
      refine hstays r ?_ container horigin hnone hindex
      rw [← hrest, hmore, List.append_assoc, List.drop_append_of_le_length hu.kept.length_le]
      exact List.mem_append_right _ (List.mem_append_left _ hr)
    · cases hanswered <;> exact hbad trivial
    · exact hbad trivial
  · intro hok
    exact (hfresh hok h.run).silent

/-! ## `app` is deleted and deployed again as another service -/

instance (i : ℤ) (tracked : InsertionMap ℤ Service) (containerName : JsString) :
    Decidable (TakenBy settings i tracked containerName) :=
  match h : claimant settings tracked containerName with
  | none => isFalse fun ⟨before, service, later, hsplit, hclaims, hbefore⟩ => by
      have hfirst : claimant settings tracked containerName = some (i, service) :=
        InsertionMap.first_eq_of_split hsplit hclaims fun entry hentry =>
          Bool.eq_false_iff.mpr (hbefore entry hentry)
      cases h.symm.trans hfirst
  | some found => decidable_of_iff (found.1 = i) (claimant_index_eq_iff settings h i)

instance (i : ℤ) (s t : System) : (e : Happening) → Decidable (Untaken settings i s t e)
  | .command _ => isTrue trivial
  | .created .. => isTrue trivial
  | .resume .. => isTrue trivial
  | .reject .. => isTrue trivial
  | .updated .. => isTrue trivial
  | .docker container .. =>
      match h : t.nameOf container with
      | none => isTrue fun name hname => by cases h.symm.trans hname
      | some name => decidable_of_iff
          (s.nameOf container = none → ¬ TakenBy settings i t.books.tracked name)
          ⟨fun hall name' hname => by
            obtain rfl := Option.some.inj (h.symm.trans hname)
            exact hall, fun hall => hall name h⟩

def appPayload : ServicePayload := ⟨1, js "app", js "DOCKERFILE"⟩

def redeployedApp : DeployCommand where
  serviceIndex := 2
  sourceUrl := .one (js "https://example.com/app.git")
  serviceName := js "app"
  serviceVersion := js "1.0"
  servicePort := .ofInt 80
  deployPreset := js "DOCKERFILE"

/-- DELETE of service 1, up to its end. -/
def deletion : List Happening :=
  .command (.delete appPayload .containers) :: List.replicate 8 (.resume 0 willingAnswer)

/-- A container of this name is created and starts. -/
def startOf (name : JsString) : List Happening :=
  [.created 7 name, .docker 7 .running (js "2026-01-05T10:00:00.000Z") (js "start") none]

theorem deleted_of_deletion {s : System}
    (htask : s.tasks[0]?.any (fun task => task.origin = .command (.delete appPayload .containers) ∧
      task.program.isDone) = true)
    (hreport : s.reports.any (fun report => report.task = 0 ∧
      report.emission = .serviceStatus 1 .removed) = true) : s.Deleted 1 := by
  obtain ⟨task, hmem, hdone⟩ := (Option.any_eq_true _ _).mp htask
  obtain ⟨report, hin, hremoved⟩ := List.any_eq_true.mp hreport
  simp only [decide_eq_true_eq] at hdone hremoved
  exact ⟨0, task, appPayload, .containers, hmem, hdone.1, rfl, hdone.2, report, hin, hremoved⟩

/-- A run that is all evaluated: the deletion, then `events`. -/
theorem afterDelete_of_run (events : List Happening)
    (hnames : ∀ c, Happening.command c ∈ events → c.serviceIndex ≠ 1)
    (hrun : ((serviceSystem hostSettings).run {} deletion).any (fun s =>
      s.tasks[0]?.any (fun task => task.origin = .command (.delete appPayload .containers) ∧
        task.program.isDone) &&
      s.reports.any (fun report => report.task = 0 ∧
        report.emission = .serviceStatus 1 .removed) &&
      ((serviceSystem hostSettings).run s events).isSome) = true) :
    ∃ s t, (serviceSystem hostSettings).run {} deletion = some s ∧
      (serviceSystem hostSettings).run s events = some t ∧
      AfterDelete hostSettings 1 s t events := by
  obtain ⟨s, hs, hall⟩ := (Option.any_eq_true _ _).mp hrun
  simp only [Bool.and_eq_true] at hall
  obtain ⟨t, ht⟩ := Option.isSome_iff_exists.mp hall.2
  exact ⟨s, t, hs, ht, ⟨deletion, hs⟩, deleted_of_deletion hall.1.1 hall.1.2, ht, hnames⟩

/-- A container `web` is nothing to the deleted `app`. -/
theorem deleted_stays_deleted_iff_other_name :
    ∃ s t, AfterDelete hostSettings 1 s t (startOf (js "web")) ∧ StaysDeleted 1 s t := by
  obtain ⟨s, t, hs, ht, h⟩ := afterDelete_of_run (startOf (js "web")) (by simp [startOf])
    (by decide +kernel)
  have hok : ((serviceSystem hostSettings).run {} deletion).all (fun s =>
      decide ((serviceSystem hostSettings).Along (Untaken hostSettings 1 s) s
        (startOf (js "web")))) = true := by
    decide +kernel
  rw [hs] at hok
  exact ⟨s, t, h, (deleted_stays_deleted_iff hostSettings h).mpr (of_decide_eq_true hok)⟩

/-- Service 2 is deployed under the name of the deleted service 1. The start of
its container is reported under 1. -/
theorem deleted_stays_deleted_fails :
    ∃ s t, AfterDelete hostSettings 1 s t
        (.command (.deploy redeployedApp) :: List.replicate 3 (.resume 1 willingAnswer) ++
          startOf (js "app")) ∧
      ¬ StaysDeleted 1 s t := by
  obtain ⟨s, t, hs, ht, h⟩ := afterDelete_of_run
    (.command (.deploy redeployedApp) :: List.replicate 3 (.resume 1 willingAnswer) ++
      startOf (js "app"))
    (by simp [startOf, redeployedApp, Command.serviceIndex]) (by decide +kernel)
  have hbad : ((serviceSystem hostSettings).run {} deletion).all (fun s =>
      ((serviceSystem hostSettings).run s
        (.command (.deploy redeployedApp) :: List.replicate 3 (.resume 1 willingAnswer) ++
          startOf (js "app"))).all (fun t =>
        (t.reports.drop s.reports.length).any fun report =>
          report.origin = .event 7 ∧ s.nameOf 7 = none ∧
            report.emission.serviceIndex = 1)) = true := by
    decide +kernel
  rw [hs, Option.all_some, ht, Option.all_some] at hbad
  obtain ⟨report, hreport, hwhat⟩ := List.any_eq_true.mp hbad
  simp only [decide_eq_true_eq] at hwhat
  exact ⟨s, t, h, fun hstays => hstays report hreport 7 hwhat.1 hwhat.2.1 hwhat.2.2⟩

end OpticsAgent.Tunnel
