import Mathlib
import OpticsAgent.Service.ServiceLifecycle

/-!
Which service a docker event is attributed to. The handler takes the first
tracked service whose docker name is the container's name or a prefix of it up
to a hyphen, so an owner that was tracked after a service with a shorter name
loses its events. What the handler then emits is under the one index it chose,
whatever docker answers meanwhile.
-/

namespace OpticsAgent.Service

open OpticsAgent.Ecma OpticsAgent.Node OpticsAgent.Lib OpticsAgent.Docker OpticsAgent.Docker.Agent

/-! ## What a program emits -/

/-- Emissions about service `i` only. -/
def About (i : ℤ) : Op → Prop
  | .books (.emit emission) => emission.serviceIndex = i
  | _ => True

theorem CallsOnly.about {op : Op} (i : ℤ) (h : CallsOnly op) : About i op := by
  cases op with
  | books op => exact h.elim
  | call c => trivial

variable (settings : Settings)

theorem about_emit (emission : Emission) :
    (emitToHub emission).All (About emission.serviceIndex) :=
  ⟨rfl, fun _ => trivial⟩

theorem about_syncContainerStatus (i : ℤ) (serviceName deployPreset : JsString)
    (fallback : ContainerStatus) :
    (syncContainerStatus settings i serviceName deployPreset fallback).All (About i) := by
  refine .bind (.ask trivial) fun _ => ?_
  refine .bind ((callsOnly_getContainerSnapshot settings _ _).mono fun _ => CallsOnly.about i)
    fun _ => ?_
  refine .bind (.bind (.ask trivial) fun _ => .ask rfl) fun _ => ?_
  split_ifs
  · exact .bind (.ask rfl) fun _ => .pure _
  · exact .bind (.pure _) fun _ => .pure _

theorem about_reportEvent (entry : ℤ × Service) (event : DockerStatusEvent) :
    (reportEvent settings entry event).All (About entry.1) := by
  refine .bind (about_emit _) fun _ => ?_
  exact .bind (about_syncContainerStatus settings _ _ _ _) fun _ => .pure _

/-! ## Runs -/

section Runs

variable {W α : Type} (host : Host W)

/-- What a run emitted stays emitted. -/
theorem emitted_grows (p : Agent α) (s : Session W) :
    s.books.emitted <+: (s.run host p).2.books.emitted := by
  induction p generalizing s with
  | pure a => exact List.prefix_rfl
  | throw e => exact List.prefix_rfl
  | perform op next ih =>
      refine List.IsPrefix.trans ?_ (ih _ _)
      match op with
      | .books (.emit _) => exact List.prefix_append _ _
      | .books .now | .books (.track ..) | .books .tracked | .books (.storeSnapshot _)
      | .books (.sendUpdate ..) | .books .turn | .books (.findMarker ..)
      | .books (.createMarker _) | .books (.deleteMarkers _) | .books (.deleteServices _)
      | .books (.updateServices ..) | .call _ => exact List.prefix_rfl

theorem mem_emitted (emission : Emission) (rest : Unit → Agent α) (s : Session W) :
    emission ∈ (s.run host (emitToHub emission >>= rest)).2.books.emitted := by
  have hgrows := emitted_grows host (rest ())
    { s with books := { s.books with emitted := s.books.emitted ++ [emission] } }
  exact hgrows.subset (List.mem_append_right _ (List.mem_singleton.mpr rfl))

theorem emitted_about {p : Agent α} {i : ℤ} (h : p.All (About i)) {s : Session W}
    (hs : ∀ e ∈ s.books.emitted, e.serviceIndex = i) :
    ∀ e ∈ (s.run host p).2.books.emitted, e.serviceIndex = i := by
  refine Program.All.run_invariant (Session.perform host)
    (fun t => ∀ e ∈ t.books.emitted, e.serviceIndex = i) (fun op t hop ht => ?_) h hs
  match op with
  | .books (.emit emission) =>
      intro e he
      rcases List.mem_append.mp he with hold | hnew
      · exact ht e hold
      · rw [List.mem_singleton.mp hnew]
        exact hop
  | .books .now | .books (.track ..) | .books .tracked | .books (.storeSnapshot _)
  | .books (.sendUpdate ..) | .books .turn | .books (.findMarker ..) | .books (.createMarker _)
  | .books (.deleteMarkers _) | .books (.deleteServices _) | .books (.updateServices ..)
  | .call _ => exact ht

end Runs

/-! ## Attribution -/

/-- The containers of a service: the one named as the service itself, and
`<project>-<composeService>-<n>` of its compose project. -/
inductive Owns (service : Service) : JsString → Prop
  | dockerfile : Owns service (toDockerName settings.casing service.serviceName)
  | compose (composeService : JsString) (n : ℕ) :
      Owns service (toDockerName settings.casing service.serviceName ++ js "-" ++
        (composeService ++ js "-" ++ (naturalDigits n).map digitUnit))

/-- No two tracked services have one docker name. -/
def DistinctNames (tracked : InsertionMap ℤ Service) : Prop :=
  (tracked.entries.map fun entry => toDockerName settings.casing entry.2.serviceName).Nodup

variable {W : Type}

/-- What the handler emits for one event. -/
def emittedFor (host : Host W) (world : W) (books : Books) (event : DockerStatusEvent) :
    List Emission :=
  (Session.run host (onStatusEvent settings event)
    { world := world, books := { books with emitted := [] } }).2.books.emitted

/-- Everything emitted for the event is under the index of its owner. -/
def AttributedTo (host : Host W) (world : W) (books : Books) (event : DockerStatusEvent)
    (owner : ℤ) : Prop :=
  ∀ e ∈ emittedFor settings host world books event, e.serviceIndex = owner

/-- The service claims the container. -/
abbrev Claims (entry : ℤ × Service) (containerName : JsString) : Prop :=
  containerBelongsToService settings containerName entry.2.serviceName = true

theorem Owns.claims {entry : ℤ × Service} {containerName : JsString}
    (h : Owns settings entry.2 containerName) : Claims settings entry containerName := by
  cases h with
  | dockerfile => simp [Claims, containerBelongsToService]
  | compose composeService n =>
      exact Bool.or_eq_true_iff.mpr (.inr (startsWith_iff.mpr ⟨_, rfl⟩))

theorem run_onStatusEvent (host : Host W) (s : Session W) {event : DockerStatusEvent}
    {found : ℤ × Service}
    (h : claimant settings s.books.tracked event.containerName = some found) :
    s.run host (onStatusEvent settings event) = s.run host (reportEvent settings found event) := by
  unfold onStatusEvent
  simp only [Session.run, Program.run_bind, tracked, Program.run_ask, Program.after_ok,
    Session.perform, Books.perform, h]

/-- The handler's choice alone decides the index of everything it emits. -/
theorem attributedTo_iff_claimant (host : Host W) (world : W) (books : Books)
    {event : DockerStatusEvent} {found : ℤ × Service}
    (h : claimant settings books.tracked event.containerName = some found) (owner : ℤ) :
    AttributedTo settings host world books event owner ↔ found.1 = owner := by
  unfold AttributedTo emittedFor
  rw [run_onStatusEvent settings host _ h]
  constructor
  · intro hall
    exact hall _ (mem_emitted host _ _ _)
  · rintro rfl
    exact emitted_about host (about_reportEvent settings found event) (List.forall_mem_nil _)

/-- The events of a container reach its owner exactly when no service tracked
before the owner claims the container. -/
theorem events_attributed_to_owner_iff (host : Host W) (world : W) (books : Books)
    {before later : List (ℤ × Service)} {owner : ℤ × Service}
    (hsplit : books.tracked.entries = before ++ owner :: later)
    (event : DockerStatusEvent) (howns : Owns settings owner.2 event.containerName) :
    AttributedTo settings host world books event owner.1 ↔
      ∀ entry ∈ before, ¬ Claims settings entry event.containerName := by
  constructor
  · intro hall entry hentry hclaims
    obtain ⟨found, hfound, hne⟩ := InsertionMap.first_ne_of_split
      (p := fun entry => containerBelongsToService settings event.containerName
        entry.2.serviceName) hsplit ⟨entry, hentry, hclaims⟩
    exact hne ((attributedTo_iff_claimant settings host world books hfound owner.1).mp hall)
  · intro hbefore
    have hfirst : claimant settings books.tracked event.containerName = some owner :=
      InsertionMap.first_eq_of_split hsplit howns.claims fun entry hentry =>
        Bool.eq_false_iff.mpr (hbefore entry hentry)
    exact (attributedTo_iff_claimant settings host world books hfirst owner.1).mpr rfl

/-! ## Two orders of `app` and `app-db` -/

instance (host : Host W) (world : W) (books : Books) (event : DockerStatusEvent) (owner : ℤ) :
    Decidable (AttributedTo settings host world books event owner) :=
  inferInstanceAs (Decidable (∀ e ∈ _, _))

instance (tracked : InsertionMap ℤ Service) : Decidable (DistinctNames settings tracked) :=
  inferInstanceAs (Decidable (List.Nodup _))

def app : Service := ⟨js "app", js "DOCKERFILE"⟩

def appDb : Service := ⟨js "app-db", js "DOCKERFILE"⟩

def appDbStarted : DockerStatusEvent where
  status := .running
  containerName := js "app-db"
  timestamp := js "2026-01-05T10:00:00.000Z"
  action := js "start"

theorem owns_appDbStarted : Owns hostSettings appDb appDbStarted.containerName := by
  have hname : appDbStarted.containerName =
      toDockerName hostSettings.casing appDb.serviceName := by decide +kernel
  rw [hname]
  exact .dockerfile

/-- The longer name was tracked first. -/
def longestFirst : Books := { tracked := { entries := [(2, appDb), (1, app)] } }

def shortestFirst : Books := { tracked := { entries := [(1, app), (2, appDb)] } }

theorem events_attributed_to_owner_iff_longest_first :
    AttributedTo hostSettings bareHost () longestFirst appDbStarted 2 := by
  have hsplit : longestFirst.tracked.entries = [] ++ (2, appDb) :: [(1, app)] := rfl
  exact (events_attributed_to_owner_iff hostSettings bareHost () longestFirst hsplit appDbStarted
    owns_appDbStarted).mpr (List.forall_mem_nil _)

/-- `app` was tracked before `app-db`, whose events it takes. -/
theorem events_attributed_to_owner_fails :
    DistinctNames hostSettings shortestFirst.tracked ∧
      Owns hostSettings appDb appDbStarted.containerName ∧
      ¬ AttributedTo hostSettings bareHost () shortestFirst appDbStarted 2 :=
  ⟨by decide +kernel, owns_appDbStarted, by decide +kernel⟩

end OpticsAgent.Service
