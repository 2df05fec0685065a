import Mathlib
import OpticsAgent.Docker.ContainerInspect
import OpticsAgent.Ecma.Split

/-!
What docker says about a container, in the three ways the agent asks for it:
`docker inspect` and `compose ps` have the exit code and the health in fields of
their own, `docker ps` has them in the words of its status column. Each is read
into a name and a status here.
-/

namespace OpticsAgent.Docker

open OpticsAgent.Ecma OpticsAgent.Lib

/-! ## A container as docker knows it -/

inductive DockerState where
  | created | restarting | running | removing | paused | exited | dead
deriving DecidableEq

def DockerState.text : DockerState → JsString
  | .created => js "created"
  | .restarting => js "restarting"
  | .running => js "running"
  | .removing => js "removing"
  | .paused => js "paused"
  | .exited => js "exited"
  | .dead => js "dead"

/-- The result of a health check, where there is one. -/
inductive Health where
  | starting | healthy | unhealthy
deriving DecidableEq

def Health.text : Health → JsString
  | .starting => js "starting"
  | .healthy => js "healthy"
  | .unhealthy => js "unhealthy"

def healthText (health : Option Health) : JsString :=
  (health.map Health.text).getD []

def DockerState.all : List DockerState :=
  [.created, .restarting, .running, .removing, .paused, .exited, .dead]

theorem DockerState.mem_all (state : DockerState) : state ∈ all := by
  cases state <;> simp [all]

/-- What a health check may have to say, or nothing. -/
def Health.all : List (Option Health) := [none, some .starting, some .healthy, some .unhealthy]

theorem Health.mem_all (health : Option Health) : health ∈ all := by
  rcases health with _ | _ | _ | _ <;> simp [all]

structure Container where
  name : JsString
  state : DockerState
  exitCode : ℤ
  health : Option Health
  named : name ≠ []

/-- A container of a compose project, with its labels. -/
structure ComposeContainer extends Container where
  service : JsString
  labels : List (JsString × JsString)
  inService : service ≠ []

/-- The container has ended with a code that says it failed. -/
def Container.Failed (c : Container) : Prop :=
  (c.state = .exited ∨ c.state = .dead) ∧ c.exitCode ≠ 0

instance (c : Container) : Decidable c.Failed := inferInstanceAs (Decidable (_ ∧ _))

/-- The status of a container, when its exit code is seen or not. -/
def Container.status (c : Container) (codeSeen : Bool) : ContainerStatus :=
  match c.state with
  | .removing => .removed
  | .created | .restarting => .starting
  | .running => match c.health with
    | some .unhealthy => .failed
    | some .starting => .starting
    | _ => .running
  | .exited | .dead => if codeSeen ∧ c.exitCode ≠ 0 then .failed else .stopped
  | .paused => .stopped

/-! ## What docker prints -/

/-- A word for a time since something happened. -/
inductive TimeWord where
  | lessThanASecond | oneSecond | aMinute | anHour
deriving DecidableEq

inductive TimeUnit where
  | seconds | minutes | hours | days | weeks | months | years
deriving DecidableEq

/-- How docker words the time since something happened. -/
inductive Elapsed where
  | word (w : TimeWord)
  | counted (n : ℕ) (unit : TimeUnit)
deriving DecidableEq

def TimeWord.text : TimeWord → JsString
  | .lessThanASecond => js "Less than a second"
  | .oneSecond => js "1 second"
  | .aMinute => js "About a minute"
  | .anHour => js "About an hour"

def TimeUnit.text : TimeUnit → JsString
  | .seconds => js " seconds"
  | .minutes => js " minutes"
  | .hours => js " hours"
  | .days => js " days"
  | .weeks => js " weeks"
  | .months => js " months"
  | .years => js " years"

def Elapsed.text : Elapsed → JsString
  | .word w => w.text
  | .counted n unit => (naturalDigits n).map digitUnit ++ unit.text

/-- What follows the time in the status column of a running container. -/
def healthSuffix : Option Health → JsString
  | none => []
  | some .starting => 32 :: js "(health: starting)"
  | some .healthy => 32 :: js "(healthy)"
  | some .unhealthy => 32 :: js "(unhealthy)"

/-- The status column of `docker ps`. -/
def Container.statusText (c : Container) (elapsed : Elapsed) : JsString :=
  let code := js " (" ++ (Number.ofInt c.exitCode).toText ++ js ") "
  match c.state with
  | .created => js "Created"
  | .restarting => js "Restarting" ++ code ++ elapsed.text ++ js " ago"
  | .running => js "Up " ++ elapsed.text ++ healthSuffix c.health
  | .removing => js "Removal In Progress"
  | .paused => js "Up " ++ elapsed.text ++ js " (Paused)"
  | .exited => js "Exited" ++ code ++ elapsed.text ++ js " ago"
  | .dead => js "Dead"

/-- The label column of `docker ps`. -/
def labelsText (labels : List (JsString × JsString)) : JsString :=
  [44].intercalate (labels.map fun label => label.1 ++ 61 :: label.2)

/-- The `State` object of `docker inspect`, without `Health` where there is no
health check. -/
structure InspectState (c : Container) (state : JsValue) : Prop where
  status : state.member (js "Status") = .ok (.str c.state.text)
  exitCode : state.member (js "ExitCode") = .ok (.num (.ofInt c.exitCode))
  health : match c.health with
    | none => state.member (js "Health") = .ok .undefined
    | some health => ∃ field, state.member (js "Health") = .ok field ∧
        field.member (js "Status") = .ok (.str health.text)

/-- An object of `docker inspect`. -/
structure InspectRow (c : Container) (row : JsValue) : Prop where
  name : row.member (js "Name") = .ok (.str (47 :: c.name))
  state : ∃ state, row.member (js "State") = .ok state ∧ InspectState c state

/-- A row of `compose ps -a --format json`. -/
structure ComposeRow (c : ComposeContainer) (row : JsValue) : Prop where
  name : row.member (js "Name") = .ok (.str c.name)
  service : row.member (js "Service") = .ok (.str c.service)
  state : row.member (js "State") = .ok (.str c.state.text)
  exitCode : row.member (js "ExitCode") = .ok (.num (.ofInt c.exitCode))
  health : row.member (js "Health") = .ok (.str (healthText c.health))

/-- A row of `docker ps -a`. -/
structure PsRow (c : ComposeContainer) (row : JsValue) : Prop where
  names : row.member (js "Names") = .ok (.str c.name)
  state : row.member (js "State") = .ok (.str c.state.text)
  status : ∃ elapsed, row.member (js "Status") = .ok (.str (c.statusText elapsed))
  labels : row.member (js "Labels") = .ok (.str (labelsText c.labels))

/-- The output has a row for each of these, in their order. -/
def Lists {α : Type} (isRow : α → JsValue → Prop) (containers : List α) (result : CliResult) :
    Prop :=
  List.Forall₂ isRow containers (parseJsonOutput result.stdout)

/-! ## Exit codes -/

theorem truthy_ofInt (n : ℤ) : (JsValue.num (.ofInt n)).truthy = true ↔ n ≠ 0 := by
  have hround : n ≠ 0 → roundMagnitude |(n : ℚ)| ≠ 0 := by
    intro hn
    have hone : (1 : ℚ) ≤ |(n : ℚ)| := by exact_mod_cast Int.one_le_abs hn
    have hmono := roundMagnitude_mono zero_le_one hone
    have hexact : roundMagnitude 1 = 1 := by exact_mod_cast roundMagnitude_natCast 1 (by norm_num)
    linarith
  by_cases hn : n = 0
  · subst hn
    decide +kernel
  · simp only [Number.ofInt, Number.roundSigned]
    split_ifs with hlt
    · simpa [JsValue.truthy, hn] using hround hn
    · simp [JsValue.truthy, hn]

/-! ## Statuses -/

/-- The code the agent has for a container, when it sees one. -/
def Container.seenCode (c : Container) (codeSeen : Bool) : Option Number :=
  if codeSeen then some (.ofInt c.exitCode) else none

theorem failedCode_iff (c : Container) (codeSeen : Bool) :
    ((c.seenCode codeSeen).any fun code => (JsValue.num code).truthy) = true ↔
      codeSeen = true ∧ c.exitCode ≠ 0 := by
  cases codeSeen with
  | false => simp [Container.seenCode]
  | true => simpa [Container.seenCode] using truthy_ofInt c.exitCode

/-- Text that `toLowerCase` leaves as it is. -/
def isLowerText (s : JsString) : Bool := s.all fun c => isLowerAlnum c || isSeparator c

theorem toLowerCase_of_isLowerText (casing : CaseMapping) {s : JsString}
    (h : isLowerText s = true) : casing.toLowerCase s = s := by
  apply casing.lower_fixed
  exact List.all_eq_true.mp h

theorem listedTexts :
    (∀ state ∈ DockerState.all, isLowerText state.text = true ∧ state.text ≠ js "removed" ∧
      ∀ other ∈ DockerState.all, state.text = other.text → state = other) ∧
    (∀ health ∈ Health.all, isLowerText (healthText health) = true ∧
      (healthText health = js "unhealthy" ↔ health = some .unhealthy) ∧
      (healthText health = js "starting" ↔ health = some .starting)) := by
  decide +kernel

theorem toLowerCase_state (casing : CaseMapping) (state : DockerState) :
    casing.toLowerCase state.text = state.text := by
  apply toLowerCase_of_isLowerText
  exact (listedTexts.1 state state.mem_all).1

theorem stateText_eq_iff (state other : DockerState) :
    state.text = other.text ↔ state = other := by
  constructor
  · exact (listedTexts.1 state state.mem_all).2.2 other other.mem_all
  · exact congrArg DockerState.text

/-- The status docker's words come to. -/
theorem normalizeContainerStatus_listed (casing : CaseMapping) (c : Container) (codeSeen : Bool)
    {health : Option JsString}
    (hhealth : c.state = .running → health.getD [] = healthText c.health) :
    normalizeContainerStatus casing (.str c.state.text) (c.seenCode codeSeen) health =
      .ok (c.status codeSeen) := by
  have hread : lowerText casing ((JsValue.str c.state.text).orElse (.str [])) = .ok c.state.text :=
    congrArg Except.ok (toLowerCase_state casing c.state)
  have hremoving : c.state.text = js "removing" ↔ c.state = .removing :=
    stateText_eq_iff c.state .removing
  have hremoved : c.state.text ≠ js "removed" := (listedTexts.1 c.state c.state.mem_all).2.1
  have hcreated : c.state.text = js "created" ↔ c.state = .created :=
    stateText_eq_iff c.state .created
  have hrestarting : c.state.text = js "restarting" ↔ c.state = .restarting :=
    stateText_eq_iff c.state .restarting
  have hrunning : c.state.text = js "running" ↔ c.state = .running :=
    stateText_eq_iff c.state .running
  have hexited : c.state.text = js "exited" ↔ c.state = .exited :=
    stateText_eq_iff c.state .exited
  have hdead : c.state.text = js "dead" ↔ c.state = .dead := stateText_eq_iff c.state .dead
  rw [normalizeContainerStatus, hread]
  simp only [bind, Except.bind, hremoving, hremoved, hcreated, hrestarting, hrunning, hexited,
    hdead, or_false, failedCode_iff]
  rw [Container.status]
  cases hstate : c.state with
  | running =>
      obtain ⟨hlower, hunhealthy, hstarting⟩ := listedTexts.2 c.health (Health.mem_all c.health)
      rw [hhealth hstate, toLowerCase_of_isLowerText casing hlower]
      simp only [hunhealthy, hstarting]
      rcases c.health with _ | health
      · rfl
      · cases health <;> rfl
  | created | restarting | removing | paused => rfl
  | exited | dead => rfl

/-! ## Rows -/

variable (settings : Settings)

/-- What the agent made of a container, as far as it is reported on. -/
structure SeenAs (c : Container) (codeSeen : Bool) (seen : ContainerState) : Prop where
  name : seen.name = c.name
  status : seen.status = c.status codeSeen

theorem member_ok {row : JsValue} {key s : JsString} (h : row.member key = .ok (.str s))
    (other : JsString) : ∃ v, row.member other = .ok v := by
  cases row with
  | undefined => cases h
  | null => cases h
  | obj props => exact ⟨_, rfl⟩
  | _ => exact ⟨_, rfl⟩

theorem inspectedState_listed (serviceName : JsString) {c : Container} {row : JsValue}
    (h : InspectRow c row) :
    ∃ seen, inspectedState settings serviceName row = .ok seen ∧ SeenAs c true seen := by
  obtain ⟨state, hstate, hfields⟩ := h.state
  have hread : state.orElse (.obj []) = state := by
    have hstatus := hfields.status
    cases state with
    | undefined => cases hstatus
    | null => cases hstatus
    | _ => rfl
  have hname : (JsValue.str (47 :: c.name)).truthy = true := rfl
  have hstatus : ∀ health : Option JsString, health.getD [] = healthText c.health →
      normalizeContainerStatus settings.casing (.str c.state.text) (some (.ofInt c.exitCode))
        health = .ok (c.status true) := by
    intro health hhealth
    apply normalizeContainerStatus_listed settings.casing c true
    intro _
    exact hhealth
  have hhealth := hfields.health
  rw [inspectedState, h.name, hstate]
  simp only [bind, Except.bind, pure, Except.pure, hread, hfields.status, hfields.exitCode]
  cases hc : c.health with
  | none =>
      rw [hc] at hhealth
      rw [hhealth]
      refine ⟨_, congrArg (Except.map _) (hstatus none ?_), ⟨?_, rfl⟩⟩
      · rw [hc]
        rfl
      · rfl
  | some health =>
      rw [hc] at hhealth
      obtain ⟨field, hfield, hword⟩ := hhealth
      have hseen : (some health.text).getD [] = healthText c.health := by
        rw [hc]
        rfl
      rw [hfield]
      cases field with
      | undefined => cases hword
      | null => cases hword
      | _ =>
          simp only [hword, stringOrNull]
          exact ⟨_, congrArg (Except.map _) (hstatus (some health.text) hseen), ⟨rfl, rfl⟩⟩

theorem composeRow_listed {c : ComposeContainer} {row : JsValue} (h : ComposeRow c row) :
    ∃ seen, composeRow settings row = .ok seen ∧ SeenAs c.toContainer true seen ∧
      seen.service = some c.service := by
  obtain ⟨names, hnames⟩ := member_ok h.name (js "Names")
  obtain ⟨id, hid⟩ := member_ok h.name (js "ID")
  have hservice : (JsValue.str c.service).truthy = true := by
    simpa [JsValue.truthy] using c.inService
  have hstatus : normalizeContainerStatus settings.casing (.str c.state.text)
      (some (.ofInt c.exitCode)) (some (healthText c.health)) = .ok (c.status true) := by
    apply normalizeContainerStatus_listed settings.casing c.toContainer true
    intro _
    rfl
  rw [composeRow, h.name, h.service, h.state, h.exitCode, h.health, hnames, hid]
  simp only [bind, Except.bind, pure, Except.pure]
  refine ⟨_, congrArg (Except.map _) hstatus, ⟨rfl, rfl⟩, ?_⟩
  exact if_pos hservice

theorem truthy_stateText (state : DockerState) : (JsValue.str state.text).truthy = true := by
  cases state <;> rfl

theorem healthFromStatus_str (casing : CaseMapping) (s : JsString) :
    ∃ health, healthFromStatus casing (.str s) = .ok health := by
  simp only [healthFromStatus, lowerText, bind, Except.bind]
  split_ifs <;> exact ⟨_, rfl⟩

/-- An empty status column is no status. -/
theorem healthFromStatus_column (casing : CaseMapping) (s : JsString) :
    healthFromStatus casing (if (JsValue.str s).truthy then .str s else .undefined) =
      healthFromStatus casing (.str s) := by
  cases s with
  | nil => rfl
  | cons c rest => rfl

theorem labels_column (s : JsString) : (if (JsValue.str s).truthy then s else []) = s := by
  cases s with
  | nil => rfl
  | cons c rest => rfl

/-- The label a container of a compose project has. -/
def serviceLabel : JsString := js "com.docker.compose.service"

theorem psRow_listed {c : ComposeContainer} {row : JsValue} (h : PsRow c row)
    (hhealth : c.state = .running → ∀ elapsed,
      healthFromStatus settings.casing (.str (c.statusText elapsed)) =
        .ok (c.health.map Health.text)) :
    ∃ seen, psRow settings row = .ok seen ∧ SeenAs c.toContainer false seen ∧
      seen.service = ownValue (labelsToRecord (labelsText c.labels)) serviceLabel := by
  obtain ⟨elapsed, hcolumn⟩ := h.status
  obtain ⟨health, hfound⟩ := healthFromStatus_str settings.casing (c.statusText elapsed)
  have hstatus : normalizeContainerStatus settings.casing (.str c.state.text) none health =
      .ok (c.status false) := by
    apply normalizeContainerStatus_listed settings.casing c.toContainer false
    intro hrunning
    obtain rfl := Except.ok.inj (hfound.symm.trans (hhealth hrunning elapsed))
    rfl
  rw [psRow, h.names, h.state, hcolumn, h.labels]
  simp only [bind, Except.bind, pure, Except.pure, JsValue.toText, healthFromStatus_column,
    labels_column, hfound, truthy_stateText, if_true]
  exact ⟨_, congrArg (Except.map _) hstatus, ⟨rfl, rfl⟩, rfl⟩

end OpticsAgent.Docker
