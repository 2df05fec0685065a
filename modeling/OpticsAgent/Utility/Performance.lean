import Mathlib
import OpticsAgent.Lib.Lines
import OpticsAgent.Lib.Machine
import OpticsAgent.Utility.SystemMetrics

/-!
`updatePerformance` of the application: every heartbeat drains the metrics and,
unless nothing at all was sampled, stores a row for the CPU and one for the
memory. The database answers later, other callbacks come in between, and
several heartbeats may wait at once.
-/

namespace OpticsAgent.Utility

open OpticsAgent.Lib

/-- What `updatePerformance` waits for. -/
inductive Stage where
  | creatingCpu
  | creatingMemory
  | deletingCpu (sevenDaysAgo : ℤ)
  | deletingMemory (sevenDaysAgo : ℤ)
  deriving DecidableEq

structure Task where
  metrics : SystemMetrics
  stage : Stage := .creatingCpu

/-- A row of the database, with the metrics of the drain it was made from. -/
structure Row (Metric : Type*) where
  timestamp : ℤ
  metric : Metric
  drain : SystemMetrics

structure AppService where
  utility : SystemMetricsUtility := {}
  tasks : List Task := []
  cpuUsage : List (Row ResourceMetric) := []
  memoryUsage : List (Row MemoryMetric) := []
  /-- What was sent to the dashboard, oldest first. -/
  sent : List SystemMetrics := []

namespace AppService

/-- Up to the first `await`. -/
def updatePerformance (s : AppService) (dateNow : ℤ) : AppService :=
  let (metrics, utility) := s.utility.getMetrics dateNow
  if metrics.samples.cpu = 0 ∧ metrics.samples.mem = 0 then { s with utility := utility }
  else { s with utility := utility, tasks := s.tasks ++ [{ metrics := metrics }] }

/-- The end of `updatePerformance`, also after an error. -/
def sendMetric (s : AppService) (i : ℕ) (task : Task) : AppService :=
  { s with tasks := s.tasks.eraseIdx i, sent := s.sent ++ [task.metrics] }

def waitFor (s : AppService) (i : ℕ) (task : Task) (stage : Stage) : AppService :=
  { s with tasks := s.tasks.set i { task with stage := stage } }

/-- The database has answered the call the task waits for. -/
def resume (s : AppService) (i : ℕ) (task : Task) (dateNow : ℤ) : AppService :=
  match task.stage with
  | .creatingCpu =>
      let row := ⟨task.metrics.timestamp, task.metrics.cpu, task.metrics⟩
      waitFor { s with cpuUsage := s.cpuUsage ++ [row] } i task .creatingMemory
  | .creatingMemory =>
      let row := ⟨task.metrics.timestamp, task.metrics.mem, task.metrics⟩
      waitFor { s with memoryUsage := s.memoryUsage ++ [row] } i task
        (.deletingCpu (dateNow - 7 * 24 * 60 * 60 * 1000))
  | .deletingCpu sevenDaysAgo =>
      let kept := s.cpuUsage.filter fun row => sevenDaysAgo ≤ row.timestamp
      waitFor { s with cpuUsage := kept } i task (.deletingMemory sevenDaysAgo)
  | .deletingMemory sevenDaysAgo =>
      let kept := s.memoryUsage.filter fun row => sevenDaysAgo ≤ row.timestamp
      sendMetric { s with memoryUsage := kept } i task

end AppService

namespace Performance

inductive Event where
  | cpu (usage : ℚ≥0)
  | mem (used total : ℚ≥0)
  | heartbeat (dateNow : ℤ)
  /-- The database answers the `i`-th waiting task, with success or an error. -/
  | answer (i : ℕ) (ok : Bool) (dateNow : ℤ)

def step (s : AppService) : Event → Option AppService
  | .cpu usage => some { s with utility := s.utility.collectCpu usage }
  | .mem used total => some { s with utility := s.utility.collectMem used total }
  | .heartbeat dateNow => some (s.updatePerformance dateNow)
  | .answer i ok dateNow =>
      s.tasks[i]?.map fun task => if ok then s.resume i task dateNow else s.sendMetric i task

def service : Machine AppService Event where
  step := step

def start : AppService := {}

/-! ## Drains -/

/-- What `getMetrics` returns in the course of the event. -/
def drained (s : AppService) : Event → List SystemMetrics
  | .heartbeat dateNow => [(s.utility.getMetrics dateNow).1]
  | _ => []

/-- What `getMetrics` returns along a run. -/
def drains (s : AppService) : List Event → List SystemMetrics
  | [] => []
  | event :: rest =>
      match service.step s event with
      | none => []
      | some s' => drained s event ++ drains s' rest

def Event.isHeartbeat : Event → Bool
  | .heartbeat _ => true
  | _ => false

def Event.cpuSample : Event → Option ℚ≥0
  | .cpu usage => some usage
  | _ => none

def Event.memSample : Event → Option ℚ≥0
  | .mem used _ => some used
  | _ => none

/-- The metrics of a drain are those of the samples among the events. -/
def Aggregates (events : List Event) (metrics : SystemMetrics) : Prop :=
  Summarises (events.filterMap Event.cpuSample) metrics.cpu metrics.samples.cpu ∧
    Summarises (events.filterMap Event.memSample) metrics.mem.toResourceMetric
      metrics.samples.mem

/-- Every drain aggregates the events since the one before it, each event but
the heartbeats belongs to one drain or still waits for one, and every row comes
from a drain with a sample of its kind. -/
structure Faithful (events : List Event) (s : AppService) : Prop where
  aggregated : List.Forall₂ Aggregates (completeLines Event.isHeartbeat events)
    (drains start events)
  partitioned : (completeLines Event.isHeartbeat events).flatten ++
    openLine Event.isHeartbeat events = events.filter fun event => !event.isHeartbeat
  cpuRows : ∀ row ∈ s.cpuUsage, row.drain ∈ drains start events ∧ 0 < row.drain.samples.cpu
  memoryRows : ∀ row ∈ s.memoryUsage,
    row.drain ∈ drains start events ∧ 0 < row.drain.samples.mem

/-! ## The samples of a drain -/

/-- The meters hold the samples among the events. -/
def Holds (events : List Event) (utility : SystemMetricsUtility) : Prop :=
  utility.cpu = Meter.collectAll (events.filterMap Event.cpuSample) ∧
    utility.mem = Meter.collectAll (events.filterMap Event.memSample)

theorem Holds.aggregates {events : List Event} {utility : SystemMetricsUtility}
    (h : Holds events utility) (dateNow : ℤ) :
    Aggregates events (utility.getMetrics dateNow).1 := by
  refine ⟨?_, ?_⟩
  · change Summarises _ utility.cpu.metric utility.cpu.samples
    rw [h.1]
    exact Meter.summarises_collectAll _
  · change Summarises _ utility.mem.metric utility.mem.samples
    rw [h.2]
    exact Meter.summarises_collectAll _

theorem utility_answer {s s' : AppService} {i : ℕ} {ok : Bool} {dateNow : ℤ}
    (h : step s (.answer i ok dateNow) = some s') : s'.utility = s.utility := by
  obtain ⟨task, -, rfl⟩ := Option.map_eq_some_iff.mp h
  cases ok with
  | false => rfl
  | true =>
      simp only [if_true, AppService.resume]
      cases task.stage <;> rfl

theorem utility_updatePerformance (s : AppService) (dateNow : ℤ) :
    (s.updatePerformance dateNow).utility = s.utility.reset := by
  unfold AppService.updatePerformance
  dsimp only
  split_ifs <;> rfl

/-- An event that is no heartbeat joins the events that wait for one. -/
theorem Holds.step {pending : List Event} {s s' : AppService} {event : Event}
    (h : Holds pending s.utility) (hevent : event.isHeartbeat = false)
    (hstep : step s event = some s') : Holds (pending ++ [event]) s'.utility := by
  unfold Holds
  rw [List.filterMap_append, List.filterMap_append]
  cases event with
  | cpu usage =>
      obtain rfl := Option.some.inj hstep
      refine ⟨?_, ?_⟩
      · change s.utility.cpu.collect usage = _
        rw [h.1]
        exact (Meter.collectAll_append _ usage).symm
      · change s.utility.mem = Meter.collectAll (_ ++ [])
        rw [List.append_nil]
        exact h.2
  | mem used total =>
      obtain rfl := Option.some.inj hstep
      refine ⟨?_, ?_⟩
      · change s.utility.cpu = Meter.collectAll (_ ++ [])
        rw [List.append_nil]
        exact h.1
      · change s.utility.mem.collect used = _
        rw [h.2]
        exact (Meter.collectAll_append _ used).symm
  | heartbeat dateNow => cases hevent
  | answer i ok dateNow =>
      rw [utility_answer hstep]
      change _ = Meter.collectAll (_ ++ []) ∧ _ = Meter.collectAll (_ ++ [])
      rw [List.append_nil, List.append_nil]
      exact h

/-- By induction on the run, with the events that wait for the next drain. -/
theorem aggregates_drains {events pending : List Event} {s s' : AppService}
    (hpending : ∀ event ∈ pending, event.isHeartbeat = false) (h : Holds pending s.utility)
    (hrun : service.run s events = some s') :
    List.Forall₂ Aggregates (completeLines Event.isHeartbeat (pending ++ events))
      (drains s events) := by
  induction events generalizing pending s with
  | nil =>
      rw [List.append_nil, completeLines_eq_nil_iff.mpr hpending]
      exact .nil
  | cons event rest ih =>
      obtain ⟨t, ht, hrest⟩ := Machine.run_cons hrun
      rw [drains, ht]
      cases hbeat : event.isHeartbeat with
      | true =>
          cases event with
          | heartbeat dateNow =>
              obtain rfl := Option.some.inj ht
              have hempty : Holds [] (s.updatePerformance dateNow).utility := by
                rw [utility_updatePerformance]
                exact ⟨rfl, rfl⟩
              rw [completeLines_line hpending hbeat]
              exact .cons (h.aggregates dateNow) (ih (by simp) hempty hrest)
          | _ => cases hbeat
      | false =>
          have hquiet : drained s event = [] := by
            cases event with
            | heartbeat dateNow => cases hbeat
            | _ => rfl
          have hmore : ∀ other ∈ pending ++ [event], other.isHeartbeat = false := by
            intro other hother
            rcases List.mem_append.mp hother with hold | hnew
            · exact hpending other hold
            · rw [List.mem_singleton.mp hnew]
              exact hbeat
          have htail := ih hmore (h.step hbeat ht) hrest
          rw [List.append_assoc, List.singleton_append] at htail
          dsimp only
          rw [hquiet, List.nil_append]
          exact htail

/-! ## The rows -/

/-- The tasks that wait and the rows that are stored come from drains with
property `P`. -/
structure Drawn (P : SystemMetrics → Prop) (s : AppService) : Prop where
  tasks : ∀ task ∈ s.tasks, P task.metrics
  cpuRows : ∀ row ∈ s.cpuUsage, P row.drain
  memoryRows : ∀ row ∈ s.memoryUsage, P row.drain

variable {P : SystemMetrics → Prop}

theorem Drawn.waitFor {s : AppService} (hs : Drawn P s) (i : ℕ) {task : Task}
    (htask : P task.metrics) (stage : Stage) : Drawn P (s.waitFor i task stage) := by
  refine ⟨?_, hs.cpuRows, hs.memoryRows⟩
  intro other hother
  rcases List.mem_or_eq_of_mem_set hother with hold | rfl
  · exact hs.tasks other hold
  · exact htask

theorem Drawn.sendMetric {s : AppService} (hs : Drawn P s) (i : ℕ) (task : Task) :
    Drawn P (s.sendMetric i task) :=
  ⟨fun other hother => hs.tasks other (List.mem_of_mem_eraseIdx hother), hs.cpuRows,
    hs.memoryRows⟩

theorem Drawn.resume {s : AppService} (hs : Drawn P s) (i : ℕ) {task : Task}
    (htask : P task.metrics) (dateNow : ℤ) : Drawn P (s.resume i task dateNow) := by
  unfold AppService.resume
  cases task.stage with
  | creatingCpu =>
      apply Drawn.waitFor _ i htask
      refine ⟨hs.tasks, ?_, hs.memoryRows⟩
      intro row hrow
      rcases List.mem_append.mp hrow with hold | hnew
      · exact hs.cpuRows row hold
      · rw [List.mem_singleton.mp hnew]
        exact htask
  | creatingMemory =>
      apply Drawn.waitFor _ i htask
      refine ⟨hs.tasks, hs.cpuRows, ?_⟩
      intro row hrow
      rcases List.mem_append.mp hrow with hold | hnew
      · exact hs.memoryRows row hold
      · rw [List.mem_singleton.mp hnew]
        exact htask
  | deletingCpu sevenDaysAgo =>
      apply Drawn.waitFor _ i htask
      exact ⟨hs.tasks, fun row hrow => hs.cpuRows row (List.mem_filter.mp hrow).1, hs.memoryRows⟩
  | deletingMemory sevenDaysAgo =>
      apply Drawn.sendMetric
      exact ⟨hs.tasks, hs.cpuRows, fun row hrow => hs.memoryRows row (List.mem_filter.mp hrow).1⟩

theorem Drawn.updatePerformance {s : AppService} (hs : Drawn P s) (dateNow : ℤ)
    (hdrain : ¬ (s.utility.cpu.samples = 0 ∧ s.utility.mem.samples = 0) →
      P (s.utility.getMetrics dateNow).1) : Drawn P (s.updatePerformance dateNow) := by
  unfold AppService.updatePerformance
  dsimp only
  split_ifs with hnone
  · exact ⟨hs.tasks, hs.cpuRows, hs.memoryRows⟩
  · refine ⟨?_, hs.cpuRows, hs.memoryRows⟩
    intro task htask
    rcases List.mem_append.mp htask with hold | hnew
    · exact hs.tasks task hold
    · rw [List.mem_singleton.mp hnew]
      exact hdrain hnone

/-- A heartbeat finds samples of both kinds or of neither. -/
def Paired (s : AppService) : Event → Prop
  | .heartbeat _ => s.utility.cpu.samples = 0 ↔ s.utility.mem.samples = 0
  | _ => True

instance (s : AppService) : ∀ event, Decidable (Paired s event)
  | .cpu _ => isTrue trivial
  | .mem _ _ => isTrue trivial
  | .heartbeat _ => inferInstanceAs (Decidable (_ ↔ _))
  | .answer _ _ _ => isTrue trivial

/-- Both kinds were sampled. -/
def Sampled (metrics : SystemMetrics) : Prop := 0 < metrics.samples.cpu ∧ 0 < metrics.samples.mem

theorem Drawn.step {s s' : AppService} {event : Event} (hs : Drawn P s)
    (hdrain : ∀ metrics ∈ drained s event, Sampled metrics → P metrics) (hpaired : Paired s event)
    (hstep : step s event = some s') : Drawn P s' := by
  cases event with
  | cpu usage =>
      obtain rfl := Option.some.inj hstep
      exact ⟨hs.tasks, hs.cpuRows, hs.memoryRows⟩
  | mem used total =>
      obtain rfl := Option.some.inj hstep
      exact ⟨hs.tasks, hs.cpuRows, hs.memoryRows⟩
  | heartbeat dateNow =>
      obtain rfl := Option.some.inj hstep
      apply hs.updatePerformance dateNow
      intro hsome
      have hboth : s.utility.cpu.samples ≠ 0 ∧ s.utility.mem.samples ≠ 0 :=
        ⟨fun h => hsome ⟨h, hpaired.mp h⟩, fun h => hsome ⟨hpaired.mpr h, h⟩⟩
      apply hdrain _ List.mem_cons_self
      exact ⟨Nat.pos_of_ne_zero hboth.1, Nat.pos_of_ne_zero hboth.2⟩
  | answer i ok dateNow =>
      obtain ⟨task, hget, rfl⟩ := Option.map_eq_some_iff.mp hstep
      have htask := hs.tasks task (List.mem_of_getElem? hget)
      cases ok with
      | false => exact hs.sendMetric i task
      | true => exact hs.resume i htask dateNow

theorem Drawn.run {s s' : AppService} {events : List Event} (hs : Drawn P s)
    (hdrain : ∀ metrics ∈ drains s events, Sampled metrics → P metrics)
    (hpaired : service.Along Paired s events) (hrun : service.run s events = some s') :
    Drawn P s' := by
  induction events generalizing s with
  | nil =>
      obtain rfl := Option.some.inj hrun
      exact hs
  | cons event rest ih =>
      obtain ⟨t, ht, hrest⟩ := Machine.run_cons hrun
      rw [drains, ht] at hdrain
      dsimp only at hdrain
      apply ih (hs.step _ hpaired.1 ht) _ (hpaired.2 t ht) hrest
      · exact fun metrics hmetrics => hdrain metrics (List.mem_append_left _ hmetrics)
      · exact fun metrics hmetrics => hdrain metrics (List.mem_append_right _ hmetrics)

/-- Every drain has the samples since the one before it. When every heartbeat
finds samples of both kinds or of neither, every stored row has some. -/
theorem metrics_faithful {s : AppService} {events : List Event}
    (hrun : service.run start events = some s)
    (hpaired : service.Along Paired start events) : Faithful events s := by
  have hstart : Drawn (fun metrics => metrics ∈ drains start events ∧ Sampled metrics) start :=
    ⟨by simp [start], by simp [start], by simp [start]⟩
  have hdrawn := hstart.run (fun metrics hmetrics hsampled => ⟨hmetrics, hsampled⟩) hpaired hrun
  refine ⟨?_, ?_, ?_, ?_⟩
  · exact @aggregates_drains events [] start s (by simp) ⟨rfl, rfl⟩ hrun
  · exact flatten_completeLines events
  · intro row hrow
    have h := hdrawn.cpuRows row hrow
    exact ⟨h.1, h.2.1⟩
  · intro row hrow
    have h := hdrawn.memoryRows row hrow
    exact ⟨h.1, h.2.2⟩

/-- Both kinds are sampled before the heartbeat, and the database answers after
the next sample. -/
theorem metrics_faithful_sampled :
    let events : List Event := [.mem 5 16, .cpu (1 / 4), .mem 7 16, .heartbeat 1000, .mem 6 16,
      .answer 0 true 1003, .answer 0 true 1004]
    ∃ s, service.run start events = some s ∧ Faithful events s ∧
      s.cpuUsage.length = 1 ∧ s.memoryUsage.length = 1 := by
  intro events
  have hstored : (service.run start events).map (fun s =>
      (s.cpuUsage.length, s.memoryUsage.length)) = some (1, 1) := by decide +kernel
  obtain ⟨s, hrun, hs⟩ := Option.map_eq_some_iff.mp hstored
  have hpaired : service.Along Paired start events := by decide +kernel
  exact ⟨s, hrun, metrics_faithful hrun hpaired, Prod.mk.inj hs⟩

/-- The first CPU measurement takes a second, so the first heartbeat finds the
memory's samples alone: a row of zeros is stored for the CPU. -/
theorem metrics_faithful_fails :
    ¬ ∀ events s, service.run start events = some s → Faithful events s := by
  intro hclaim
  let events : List Event := [.mem 5 16, .heartbeat 1000, .answer 0 true 1003]
  have hstored : (service.run start events).map (fun s =>
      s.cpuUsage.map fun row => row.drain.samples.cpu) = some [0] := by decide +kernel
  obtain ⟨s, hrun, hs⟩ := Option.map_eq_some_iff.mp hstored
  have hrows := (hclaim events s hrun).cpuRows
  cases hrow : s.cpuUsage with
  | nil => simp [hrow] at hs
  | cons row rest =>
      have hzero : row.drain.samples.cpu = 0 := by
        simp only [hrow, List.map_cons, List.cons.injEq] at hs
        exact hs.1
      have hpos := (hrows row (by simp [hrow])).2
      omega

end Performance

end OpticsAgent.Utility
