import Mathlib
import OpticsAgent.Docker.LogService
import OpticsAgent.Lib.InsertionMap
import OpticsAgent.Lib.Machine

/-!
The processes that follow logs. `streamContainerLog` stops the follower
registered under the name, hands out the history and starts a new one;
`stopContainerLog` kills the registered one. To kill a process is to send it a
signal: it closes whenever it likes, also long after it was replaced, and until it
does its `data` handlers pass on what it prints.
-/

namespace OpticsAgent.Docker

open OpticsAgent.Ecma OpticsAgent.Node OpticsAgent.Lib

/-- A process started by `dockerCli.stream`. -/
structure Follower where
  containerName : JsString
  args : List JsString
  killed : Bool := false
  closed : Bool := false

/-- What the process prints is passed on until it closes, killed or not. -/
def Follower.Delivers (follower : Follower) : Prop := follower.closed = false

/-- Neither killed nor closed. -/
def Follower.Live (follower : Follower) : Prop :=
  follower.killed = false ∧ follower.closed = false

/-- Every process ever started, in order, the map of the registered ones, and what
was given to `onLog`, each entry with the process it comes from. -/
structure FollowerState where
  logStreams : InsertionMap JsString ℕ := {}
  followers : List Follower := []
  delivered : List (ℕ × DockerLogEntry) := []

/-- The calls of the service, and the `data` and `close` events. A call of
`streamContainerLog` comes with what docker answers the history query, and
whether the callbacks took the history without throwing. -/
inductive FollowerEvent where
  | streamContainerLog (containerName deployPreset : JsString) (docker : List JsString → Exit)
      (delivered : Bool)
  | stopContainerLog (containerName : JsString)
  | data (proc : ℕ) (chunk : List Byte) (stderr : Bool)
  | close (proc : ℕ)

def followArgs (containerName : JsString) (isCompose : Bool) : List JsString :=
  if isCompose then
    [js "compose", js "-p", containerName, js "logs", js "--follow", js "--tail", js "0",
      js "--timestamps"]
  else [js "logs", js "--follow", js "--tail", js "0", js "--timestamps", containerName]

variable (stack : ℕ) (casing : CaseMapping)

namespace FollowerState

def stopContainerLog (s : FollowerState) (containerName : JsString) : FollowerState :=
  match s.logStreams.get containerName with
  | none => s
  | some proc =>
      { s with
        logStreams := s.logStreams.erase containerName
        followers := s.followers.modify proc fun follower => { follower with killed := true } }

/-- `spawn` and the registration under the name. -/
def follow (s : FollowerState) (containerName : JsString) (isCompose : Bool) : FollowerState :=
  { s with
    logStreams := s.logStreams.set containerName s.followers.length
    followers := s.followers ++
      [{ containerName := containerName, args := followArgs containerName isCompose }] }

def streamContainerLog (s : FollowerState) (containerName deployPreset : JsString)
    (docker : List JsString → Exit) (delivered : Bool) : FollowerState :=
  let stopped := if (s.logStreams.get containerName).isSome then
    s.stopContainerLog containerName else s
  let isCompose := isComposePreset casing deployPreset
  match fetchLogEntries stack docker containerName
      (logArgs containerName isCompose (js "10000") none) with
  | .error _ => stopped
  | .ok _ => if delivered then stopped.follow containerName isCompose else stopped

/-- The `data` handlers. -/
def onData (s : FollowerState) (proc : ℕ) (follower : Follower) (chunk : List Byte)
    (stderr : Bool) : FollowerState :=
  { s with
    delivered := s.delivered ++
      (pushLines stack chunk follower.containerName stderr).1.map fun entry => (proc, entry) }

/-- The `onClose` handler: it only removes its own process. -/
def onClose (s : FollowerState) (proc : ℕ) (follower : Follower) : FollowerState :=
  { s with
    logStreams := if s.logStreams.get follower.containerName = some proc then
      s.logStreams.erase follower.containerName else s.logStreams
    followers := s.followers.modify proc fun follower => { follower with closed := true } }

end FollowerState

/-- A process prints until it closes, and closes once, whatever was done to it
before. -/
def logFollowers : Machine FollowerState FollowerEvent where
  step s
    | .streamContainerLog containerName deployPreset docker delivered =>
        some (s.streamContainerLog stack casing containerName deployPreset docker delivered)
    | .stopContainerLog containerName => some (s.stopContainerLog containerName)
    | .data proc chunk stderr => (s.followers[proc]?).bind fun follower =>
        if follower.closed then none else some (s.onData stack proc follower chunk stderr)
    | .close proc => (s.followers[proc]?).bind fun follower =>
        if follower.closed then none else some (s.onClose proc follower)

/-! ## The invariant -/

namespace FollowerState

/-- The live processes are the registered ones. -/
structure Registered (s : FollowerState) : Prop where
  live : ∀ proc follower, s.followers[proc]? = some follower → follower.Live →
    s.logStreams.get follower.containerName = some proc
  known : ∀ containerName proc, s.logStreams.get containerName = some proc →
    ∃ follower, s.followers[proc]? = some follower ∧ follower.containerName = containerName ∧
      follower.Live

variable {s : FollowerState}

/-- One process ends and goes from the map, where the others stay. -/
theorem Registered.retire (h : s.Registered) {proc : ℕ} {mark : Follower → Follower}
    (hdead : ∀ follower, ¬ (mark follower).Live) {streams : InsertionMap JsString ℕ}
    (hstreams : ∀ containerName other, streams.get containerName = some other ↔
      s.logStreams.get containerName = some other ∧ other ≠ proc) :
    Registered { s with logStreams := streams, followers := s.followers.modify proc mark } := by
  constructor
  · intro other follower hfollower hlive
    rw [List.getElem?_modify] at hfollower
    obtain ⟨before, hbefore, rfl⟩ := Option.map_eq_some_iff.mp hfollower
    by_cases hsame : proc = other
    · rw [if_pos hsame] at hlive
      exact absurd hlive (hdead before)
    · rw [if_neg hsame] at hlive ⊢
      exact (hstreams _ _).mpr ⟨h.live other before hbefore hlive, Ne.symm hsame⟩
  · intro containerName other hother
    obtain ⟨hold, hne⟩ := (hstreams _ _).mp hother
    obtain ⟨follower, hfollower, hrest⟩ := h.known containerName other hold
    refine ⟨follower, ?_, hrest⟩
    rw [List.getElem?_modify, hfollower, Option.map_eq_map, Option.map_some,
      if_neg (Ne.symm hne)]

theorem Registered.get_erase_iff (h : s.Registered) {containerName : JsString} {proc : ℕ}
    (hget : s.logStreams.get containerName = some proc) (name : JsString) (other : ℕ) :
    (s.logStreams.erase containerName).get name = some other ↔
      s.logStreams.get name = some other ∧ other ≠ proc := by
  rw [InsertionMap.get_erase]
  by_cases hname : containerName = name
  · subst hname
    rw [if_pos rfl, hget]
    simp [eq_comm]
  · rw [if_neg hname]
    refine ⟨fun hother => ⟨hother, ?_⟩, And.left⟩
    rintro rfl
    -- A process is registered under its own name only.
    obtain ⟨follower, hfollower, hown, -⟩ := h.known containerName other hget
    obtain ⟨same, hsame, hownName, -⟩ := h.known name other hother
    rw [hfollower] at hsame
    obtain rfl := Option.some.inj hsame
    exact hname (hown.symm.trans hownName)

theorem Registered.stopContainerLog (h : s.Registered) (containerName : JsString) :
    (s.stopContainerLog containerName).Registered := by
  unfold FollowerState.stopContainerLog
  cases hget : s.logStreams.get containerName with
  | none => exact h
  | some proc =>
      refine h.retire ?_ (h.get_erase_iff hget)
      rintro _ ⟨hkilled, -⟩
      cases hkilled

theorem get_stopContainerLog (s : FollowerState) (containerName : JsString) :
    (s.stopContainerLog containerName).logStreams.get containerName = none := by
  unfold FollowerState.stopContainerLog
  cases hget : s.logStreams.get containerName with
  | none => exact hget
  | some proc => rw [InsertionMap.get_erase, if_pos rfl]

/-- A new process under a name no process is registered under. -/
theorem Registered.follow (h : s.Registered) {containerName : JsString}
    (hfree : s.logStreams.get containerName = none) (isCompose : Bool) :
    (s.follow containerName isCompose).Registered := by
  constructor
  · intro proc follower hfollower hlive
    change (s.followers ++ [_])[proc]? = some follower at hfollower
    rw [FollowerState.follow, InsertionMap.get_set]
    rcases lt_trichotomy proc s.followers.length with hold | rfl | hnew
    · rw [List.getElem?_append_left hold] at hfollower
      have hget := h.live proc follower hfollower hlive
      rw [if_neg (by rintro rfl; cases hfree.symm.trans hget), hget]
    · rw [List.getElem?_concat_length] at hfollower
      obtain rfl := Option.some.inj hfollower
      rw [if_pos rfl]
    · rw [List.getElem?_eq_none (by simp; omega)] at hfollower
      cases hfollower
  · intro name proc hget
    rw [FollowerState.follow, InsertionMap.get_set] at hget
    change ∃ follower, (s.followers ++ [_])[proc]? = some follower ∧ _
    by_cases hname : containerName = name
    · rw [if_pos hname] at hget
      obtain rfl := Option.some.inj hget
      rw [List.getElem?_concat_length]
      exact ⟨_, rfl, hname, rfl, rfl⟩
    · rw [if_neg hname] at hget
      obtain ⟨follower, hfollower, hrest⟩ := h.known name proc hget
      refine ⟨follower, ?_, hrest⟩
      rw [List.getElem?_append_left (List.getElem?_eq_some_iff.mp hfollower).1, hfollower]

theorem Registered.streamContainerLog (h : s.Registered) (containerName deployPreset : JsString)
    (docker : List JsString → Exit) (delivered : Bool) :
    (s.streamContainerLog stack casing containerName deployPreset docker
      delivered).Registered := by
  have hstopped : ∃ stopped : FollowerState, (if (s.logStreams.get containerName).isSome then
      s.stopContainerLog containerName else s) = stopped ∧ stopped.Registered ∧
        stopped.logStreams.get containerName = none := by
    refine ⟨_, rfl, ?_⟩
    split_ifs with hhas
    · exact ⟨h.stopContainerLog containerName, get_stopContainerLog s containerName⟩
    · exact ⟨h, Option.not_isSome_iff_eq_none.mp hhas⟩
  obtain ⟨stopped, heq, hregistered, hfree⟩ := hstopped
  unfold FollowerState.streamContainerLog
  rw [heq]
  dsimp only
  split
  · exact hregistered
  · split_ifs
    · exact hregistered.follow hfree _
    · exact hregistered

theorem Registered.onClose (h : s.Registered) {proc : ℕ} {follower : Follower}
    (hfollower : s.followers[proc]? = some follower) : (s.onClose proc follower).Registered := by
  apply h.retire
  · rintro _ ⟨-, hclosed⟩
    cases hclosed
  · split_ifs with hget
    · exact h.get_erase_iff hget
    · intro containerName other
      refine ⟨fun hother => ⟨hother, ?_⟩, And.left⟩
      rintro rfl
      obtain ⟨same, hsame, rfl, -⟩ := h.known containerName other hother
      rw [hfollower] at hsame
      obtain rfl := Option.some.inj hsame
      exact hget hother

end FollowerState

open FollowerState

theorem registered_step {s s' : FollowerState} {e : FollowerEvent} (h : s.Registered)
    (hstep : (logFollowers stack casing).step s e = some s') : s'.Registered := by
  cases e with
  | streamContainerLog containerName deployPreset docker delivered =>
      obtain rfl := Option.some.inj hstep
      exact h.streamContainerLog stack casing _ _ _ _
  | stopContainerLog containerName =>
      obtain rfl := Option.some.inj hstep
      exact h.stopContainerLog containerName
  | data proc chunk stderr =>
      obtain ⟨follower, -, hdata⟩ := Option.bind_eq_some_iff.mp hstep
      split_ifs at hdata
      obtain rfl := Option.some.inj hdata
      exact ⟨h.live, h.known⟩
  | close proc =>
      obtain ⟨follower, hfollower, hclose⟩ := Option.bind_eq_some_iff.mp hstep
      split_ifs at hclose
      obtain rfl := Option.some.inj hclose
      exact h.onClose hfollower

theorem registered_run {events : List FollowerEvent} {s : FollowerState}
    (hrun : (logFollowers stack casing).run {} events = some s) : s.Registered := by
  apply Machine.run_invariant (fun s e s' => registered_step stack casing) _ hrun
  constructor
  · intro proc follower hfollower
    cases hfollower
  · intro containerName proc hget
    cases hget

/-- At most one process under a name delivers lines. -/
def OneDelivers (s : FollowerState) : Prop :=
  ∀ (proc other : ℕ) (follower rival : Follower), s.followers[proc]? = some follower →
    s.followers[other]? = some rival → follower.Delivers → rival.Delivers →
      follower.containerName = rival.containerName → proc = other

/-- No process is lost: it is killed, closed, or registered under its name, at
most one under a name is live, and what is delivered comes from it or from a killed
one that has not closed. Closing an old one keeps a newer one registered, and
stopping a name leaves only killed ones. -/
theorem one_follower_per_name {events : List FollowerEvent} {s : FollowerState}
    (hrun : (logFollowers stack casing).run {} events = some s) :
    (∀ (proc : ℕ) (follower : Follower), s.followers[proc]? = some follower →
      follower.killed = true ∨ follower.closed = true ∨
        s.logStreams.get follower.containerName = some proc) ∧
    (∀ (proc other : ℕ) (follower rival : Follower), s.followers[proc]? = some follower →
      s.followers[other]? = some rival → follower.Live → rival.Live →
        follower.containerName = rival.containerName → proc = other) ∧
    (∀ proc chunk stderr s',
      (logFollowers stack casing).step s (.data proc chunk stderr) = some s' →
        ∃ follower, s.followers[proc]? = some follower ∧ follower.Delivers ∧
          (follower.killed = true ∨ s.logStreams.get follower.containerName = some proc)) ∧
    (∀ proc s', (logFollowers stack casing).step s (.close proc) = some s' →
      ∀ containerName other, s.logStreams.get containerName = some other → other ≠ proc →
        s'.logStreams.get containerName = some other) ∧
    (∀ containerName s',
      (logFollowers stack casing).step s (.stopContainerLog containerName) = some s' →
        s'.logStreams.get containerName = none ∧ ∀ (proc : ℕ) (follower : Follower),
          s'.followers[proc]? = some follower → follower.containerName = containerName →
            follower.Delivers → follower.killed = true) := by
  have h := registered_run stack casing hrun
  have hlost : ∀ (proc : ℕ) (follower : Follower), s.followers[proc]? = some follower →
      follower.killed = true ∨ follower.closed = true ∨
        s.logStreams.get follower.containerName = some proc := by
    intro proc follower hfollower
    by_cases hkilled : follower.killed = true
    · exact .inl hkilled
    · by_cases hclosed : follower.closed = true
      · exact .inr (.inl hclosed)
      · right
        right
        apply h.live proc follower hfollower
        exact ⟨Bool.eq_false_iff.mpr hkilled, Bool.eq_false_iff.mpr hclosed⟩
  refine ⟨hlost, ?_, ?_, ?_, ?_⟩
  · intro proc other follower rival hfollower hrival hlive hrivalLive hname
    have hget := h.live proc follower hfollower hlive
    rw [hname, h.live other rival hrival hrivalLive] at hget
    exact (Option.some.inj hget).symm
  · intro proc chunk stderr s' hstep
    obtain ⟨follower, hfollower, hdata⟩ := Option.bind_eq_some_iff.mp hstep
    split_ifs at hdata with hclosed
    have hopen : follower.closed = false := Bool.eq_false_iff.mpr hclosed
    refine ⟨follower, hfollower, hopen, ?_⟩
    rcases hlost proc follower hfollower with hkilled | hend | hget
    · exact .inl hkilled
    · exact absurd hend hclosed
    · exact .inr hget
  · intro proc s' hstep containerName other hother hne
    obtain ⟨follower, -, hclose⟩ := Option.bind_eq_some_iff.mp hstep
    split_ifs at hclose
    obtain rfl := Option.some.inj hclose
    change (if s.logStreams.get follower.containerName = some proc then _ else _ :
      InsertionMap JsString ℕ).get containerName = some other
    split_ifs with hget
    · exact (h.get_erase_iff hget containerName other).mpr ⟨hother, hne⟩
    · exact hother
  · intro containerName s' hstep
    obtain rfl := Option.some.inj hstep
    have hnone := get_stopContainerLog s containerName
    refine ⟨hnone, fun proc follower hfollower hname hopen => ?_⟩
    by_contra hkilled
    have hget := (h.stopContainerLog containerName).live proc follower hfollower
      ⟨Bool.eq_false_iff.mpr hkilled, hopen⟩
    rw [hname, hnone] at hget
    cases hget

/-- A docker that answers with an empty log. -/
def emptyLog : List JsString → Exit := fun _ => ⟨some 0, [], [], {}⟩

theorem one_follower_per_name_restarted :
    ∃ s, (logFollowers 1000 asciiCase).run {} [
        .streamContainerLog (js "app") (js "DOCKERFILE") emptyLog true,
        .streamContainerLog (js "app") (js "DOCKERFILE") emptyLog true, .close 0] = some s ∧
      ∀ (proc : ℕ) (follower : Follower), s.followers[proc]? = some follower →
        follower.killed = true ∨ follower.closed = true ∨
          s.logStreams.get follower.containerName = some proc :=
  ⟨_, rfl, (one_follower_per_name 1000 asciiCase (rfl : (logFollowers 1000 asciiCase).run {} [
        .streamContainerLog (js "app") (js "DOCKERFILE") emptyLog true,
        .streamContainerLog (js "app") (js "DOCKERFILE") emptyLog true, .close 0] = some _)).1⟩

/-- A killed process prints once more, beside its successor and after the stop of
the name. -/
def lateLines : List FollowerEvent :=
  [.streamContainerLog (js "app") (js "DOCKERFILE") emptyLog true,
    .streamContainerLog (js "app") (js "DOCKERFILE") emptyLog true,
    .data 0 (utf8Bytes (js "old\n")) false, .data 1 (utf8Bytes (js "new\n")) false,
    .stopContainerLog (js "app"), .data 1 (utf8Bytes (js "late\n")) false]

theorem one_follower_per_name_fails :
    ∃ s, (logFollowers 1000 asciiCase).run {} lateLines = some s ∧ ¬ OneDelivers s ∧
      s.logStreams.get (js "app") = none ∧
      s.delivered.map (fun entry => (entry.1, entry.2.line)) =
        [(0, js "old"), (1, js "new"), (1, js "late")] := by
  refine ⟨_, rfl, fun hone => ?_, by decide +kernel, by decide +kernel⟩
  have hsame : 0 = 1 := hone 0 1 _ _ rfl rfl rfl rfl rfl
  cases hsame

end OpticsAgent.Docker
