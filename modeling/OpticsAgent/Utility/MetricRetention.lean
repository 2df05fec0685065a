import Mathlib
import OpticsAgent.Utility.Performance

/-!
What the heartbeats keep. Every heartbeat deletes the rows older than a week by a
cutoff it read before the deletions, while rows of other heartbeats come in; the
dashboard asks for the last week.
-/

namespace OpticsAgent.Utility

open OpticsAgent.Lib

def weekMs : ℤ := 7 * 24 * 60 * 60 * 1000

/-- The rows between two times, oldest first. -/
def storedBetween {Metric : Type*} (rows : List (Row Metric)) (fromTime toTime : ℤ) :
    List (ℤ × Metric) :=
  ((rows.filter fun row => fromTime ≤ row.timestamp ∧ row.timestamp ≤ toTime).map
    fun row => (row.timestamp, row.metric)).mergeSort fun a b => a.1 ≤ b.1

namespace AppService

/-- `/cpu-metrics`, with the numbers the request gives. -/
def getCpuMetrics (s : AppService) (fromTime toTime : Option ℤ) (dateNow : ℤ) :
    List (ℤ × ResourceMetric) :=
  storedBetween s.cpuUsage (fromTime.getD (dateNow - weekMs)) (toTime.getD dateNow)

/-- `/memory-metrics`. -/
def getMemoryMetrics (s : AppService) (fromTime toTime : Option ℤ) (dateNow : ℤ) :
    List (ℤ × MemoryMetric) :=
  storedBetween s.memoryUsage (fromTime.getD (dateNow - weekMs)) (toTime.getD dateNow)

end AppService

namespace Performance

/-- The rows that a query at `now` is to find. -/
def lastWeek {Metric : Type*} (now : ℤ) (rows : List (Row Metric)) : List (Row Metric) :=
  rows.filter fun row => now - weekMs ≤ row.timestamp

/-- No reading of the clock is later than `now`. -/
def Event.ReadsBy (now : ℤ) : Event → Prop
  | .heartbeat dateNow => dateNow ≤ now
  | .answer _ _ dateNow => dateNow ≤ now
  | _ => True

/-- A deletion that waits spares the last week. -/
def Spares (now : ℤ) : Stage → Prop
  | .deletingCpu sevenDaysAgo => sevenDaysAgo ≤ now - weekMs
  | .deletingMemory sevenDaysAgo => sevenDaysAgo ≤ now - weekMs
  | _ => True

/-- Whatever earlier processes left in the tables, nothing in them or on its way
to them is later than `now`. -/
structure Timely (now : ℤ) (s : AppService) : Prop where
  tasks : ∀ task ∈ s.tasks, task.metrics.timestamp ≤ now ∧ Spares now task.stage
  cpuRows : ∀ row ∈ s.cpuUsage, row.timestamp ≤ now
  memoryRows : ∀ row ∈ s.memoryUsage, row.timestamp ≤ now

/-- The last week's rows of `s` are still there in `s'`, in their order. -/
structure Kept (now : ℤ) (s s' : AppService) : Prop where
  cpu : lastWeek now s.cpuUsage <+: lastWeek now s'.cpuUsage
  memory : lastWeek now s.memoryUsage <+: lastWeek now s'.memoryUsage

variable {now : ℤ}

theorem Kept.trans {s t u : AppService} (h : Kept now s t) (h' : Kept now t u) : Kept now s u :=
  ⟨h.cpu.trans h'.cpu, h.memory.trans h'.memory⟩

theorem kept_of_rows {s s' : AppService} (hcpu : s'.cpuUsage = s.cpuUsage)
    (hmemory : s'.memoryUsage = s.memoryUsage) : Kept now s s' := by
  refine ⟨?_, ?_⟩
  · rw [hcpu]
  · rw [hmemory]

theorem lastWeek_append {Metric : Type*} (rows more : List (Row Metric)) :
    lastWeek now rows <+: lastWeek now (rows ++ more) := by
  rw [lastWeek, lastWeek, List.filter_append]
  exact List.prefix_append _ _

/-- An earlier cutoff deletes nothing of the last week. -/
theorem lastWeek_filter {Metric : Type*} (rows : List (Row Metric)) {cutoff : ℤ}
    (h : cutoff ≤ now - weekMs) :
    lastWeek now (rows.filter fun row => cutoff ≤ row.timestamp) = lastWeek now rows := by
  rw [lastWeek, List.filter_filter, lastWeek]
  refine List.filter_congr fun row _ => ?_
  rw [Bool.and_eq_left_iff_imp]
  intro hrecent
  have hrecent := of_decide_eq_true hrecent
  exact decide_eq_true (h.trans hrecent)

theorem Timely.waitFor {s : AppService} (hs : Timely now s) (i : ℕ) {task : Task}
    (htask : task.metrics.timestamp ≤ now) {stage : Stage} (hstage : Spares now stage) :
    Timely now (s.waitFor i task stage) := by
  refine ⟨fun other hother => ?_, hs.cpuRows, hs.memoryRows⟩
  rcases List.mem_or_eq_of_mem_set hother with hold | rfl
  · exact hs.tasks other hold
  · exact ⟨htask, hstage⟩

theorem Timely.sendMetric {s : AppService} (hs : Timely now s) (i : ℕ) (task : Task) :
    Timely now (s.sendMetric i task) :=
  ⟨fun other hother => hs.tasks other (List.mem_of_mem_eraseIdx hother), hs.cpuRows,
    hs.memoryRows⟩

/-- The database has answered: a row is stored, or rows older than a week go. -/
theorem Timely.resume {s : AppService} (hs : Timely now s) (i : ℕ) {task : Task}
    (htask : task ∈ s.tasks) {dateNow : ℤ} (hclock : dateNow ≤ now) :
    Timely now (s.resume i task dateNow) ∧ Kept now s (s.resume i task dateNow) := by
  obtain ⟨hread, hspares⟩ := hs.tasks task htask
  unfold AppService.resume
  cases hstage : task.stage with
  | creatingCpu =>
      refine ⟨Timely.waitFor ?_ i hread ?_, lastWeek_append _ _, List.prefix_refl _⟩
      · refine ⟨hs.tasks, fun row hrow => ?_, hs.memoryRows⟩
        rcases List.mem_append.mp hrow with hold | hnew
        · exact hs.cpuRows row hold
        · rw [List.mem_singleton.mp hnew]
          exact hread
      · trivial
  | creatingMemory =>
      refine ⟨Timely.waitFor ?_ i hread ?_, List.prefix_refl _, lastWeek_append _ _⟩
      · refine ⟨hs.tasks, hs.cpuRows, fun row hrow => ?_⟩
        rcases List.mem_append.mp hrow with hold | hnew
        · exact hs.memoryRows row hold
        · rw [List.mem_singleton.mp hnew]
          exact hread
      · exact sub_le_sub_right hclock weekMs
  | deletingCpu sevenDaysAgo =>
      rw [hstage] at hspares
      refine ⟨Timely.waitFor ?_ i hread hspares, ?_, List.prefix_refl _⟩
      · exact ⟨hs.tasks, fun row hrow => hs.cpuRows row (List.mem_filter.mp hrow).1, hs.memoryRows⟩
      · exact (lastWeek_filter s.cpuUsage hspares).symm ▸ List.prefix_refl _
  | deletingMemory sevenDaysAgo =>
      rw [hstage] at hspares
      refine ⟨Timely.sendMetric ?_ i task, List.prefix_refl _, ?_⟩
      · exact ⟨hs.tasks, hs.cpuRows, fun row hrow => hs.memoryRows row (List.mem_filter.mp hrow).1⟩
      · exact (lastWeek_filter s.memoryUsage hspares).symm ▸ List.prefix_refl _

theorem Timely.step {s s' : AppService} {event : Event} (hs : Timely now s)
    (hclock : event.ReadsBy now) (hstep : service.step s event = some s') :
    Timely now s' ∧ Kept now s s' := by
  cases event with
  | cpu usage =>
      obtain rfl := Option.some.inj hstep
      exact ⟨⟨hs.tasks, hs.cpuRows, hs.memoryRows⟩, kept_of_rows rfl rfl⟩
  | mem used total =>
      obtain rfl := Option.some.inj hstep
      exact ⟨⟨hs.tasks, hs.cpuRows, hs.memoryRows⟩, kept_of_rows rfl rfl⟩
  | heartbeat dateNow =>
      obtain rfl := Option.some.inj hstep
      unfold AppService.updatePerformance
      dsimp only
      split_ifs
      · exact ⟨⟨hs.tasks, hs.cpuRows, hs.memoryRows⟩, kept_of_rows rfl rfl⟩
      · refine ⟨⟨fun task htask => ?_, hs.cpuRows, hs.memoryRows⟩, kept_of_rows rfl rfl⟩
        rcases List.mem_append.mp htask with hold | hnew
        · exact hs.tasks task hold
        · rw [List.mem_singleton.mp hnew]
          exact ⟨hclock, trivial⟩
  | answer i ok dateNow =>
      obtain ⟨task, htask, rfl⟩ := Option.map_eq_some_iff.mp hstep
      cases ok with
      | true => exact hs.resume i (List.mem_of_getElem? htask) hclock
      | false => exact ⟨hs.sendMetric i task, kept_of_rows rfl rfl⟩

theorem Timely.run {s s' : AppService} {events : List Event} (hs : Timely now s)
    (hclock : ∀ e ∈ events, e.ReadsBy now) (hrun : service.run s events = some s') :
    Timely now s' ∧ Kept now s s' :=
  @Machine.Along.run_invariant _ _ service _ (fun t => Timely now t ∧ Kept now s t)
    (fun t e t' ht hok hstep => by
      obtain ⟨htimely, hkept⟩ := ht.1.step hok hstep
      exact ⟨htimely, ht.2.trans hkept⟩)
    _ _ _ (Machine.along_of_forall hclock s) ⟨hs, kept_of_rows rfl rfl⟩ hrun

/-- At `now` the query for the last week finds each of its rows. -/
theorem subperm_storedBetween {Metric : Type*} {rows later : List (Row Metric)}
    (hkept : lastWeek now rows <+: lastWeek now later)
    (hpast : ∀ row ∈ later, row.timestamp ≤ now) :
    ((lastWeek now rows).map fun row => (row.timestamp, row.metric)).Subperm
      (storedBetween later (now - weekMs) now) := by
  have hfound : (later.filter fun row => now - weekMs ≤ row.timestamp ∧ row.timestamp ≤ now) =
      lastWeek now later := by
    refine List.filter_congr fun row hrow => ?_
    simp [hpast row hrow]
  rw [storedBetween, hfound]
  have hsub := (hkept.sublist.map fun row => (row.timestamp, row.metric)).subperm
  exact hsub.trans (List.mergeSort_perm _ _).symm.subperm

/-- A process that starts on the tables of an earlier one. -/
theorem timely_start {s : AppService} (htasks : s.tasks = [])
    (hcpu : ∀ row ∈ s.cpuUsage, row.timestamp ≤ now)
    (hmemory : ∀ row ∈ s.memoryUsage, row.timestamp ≤ now) : Timely now s := by
  refine ⟨?_, hcpu, hmemory⟩
  rw [htasks]
  exact nofun

/-- What was stored less than a week ago is still found, however the heartbeats,
their rows and their deletions interleave and whichever of them fail. -/
theorem last_week_is_found {s₀ s s' : AppService} {before after : List Event}
    (hstart : Timely now s₀) (hbefore : service.run s₀ before = some s)
    (hafter : service.run s after = some s')
    (hclock : ∀ e ∈ before ++ after, e.ReadsBy now) :
    ((lastWeek now s.cpuUsage).map fun row => (row.timestamp, row.metric)).Subperm
        (s'.getCpuMetrics none none now) ∧
      ((lastWeek now s.memoryUsage).map fun row => (row.timestamp, row.metric)).Subperm
        (s'.getMemoryMetrics none none now) := by
  obtain ⟨hearlier, hlater⟩ := List.forall_mem_append.mp hclock
  obtain ⟨htimely, -⟩ := hstart.run hearlier hbefore
  obtain ⟨hstill, hkept⟩ := htimely.run hlater hafter
  exact ⟨subperm_storedBetween hkept.cpu hstill.cpuRows,
    subperm_storedBetween hkept.memory hstill.memoryRows⟩

/-- An earlier process has left a row. -/
def restarted : AppService :=
  { start with cpuUsage := [⟨1000, ⟨0, 0, 0⟩, (SystemMetricsUtility.getMetrics {} 1000).1⟩] }

/-- A heartbeat whose rows are stored, and a week later one that deletes. -/
def firstRows : List Event :=
  [.mem 5 16, .cpu (1 / 4), .heartbeat 1000, .answer 0 true 1003, .answer 0 true 1004]

def aWeekLater : List Event :=
  [.answer 0 true 1005, .answer 0 true 1006, .mem 6 16, .heartbeat 604801000,
    .answer 0 true 604801000, .answer 0 true 604801000, .answer 0 true 604801000]

theorem last_week_is_found_later : ∃ s s', service.run restarted firstRows = some s ∧
    service.run s aWeekLater = some s' ∧ (lastWeek 604801000 s.cpuUsage).length = 2 ∧
      ((lastWeek 604801000 s.cpuUsage).map fun row => (row.timestamp, row.metric)).Subperm
        (s'.getCpuMetrics none none 604801000) := by
  have hstored : (service.run restarted firstRows).map (fun s =>
      ((lastWeek 604801000 s.cpuUsage).length, (service.run s aWeekLater).isSome)) =
        some (2, true) := by decide +kernel
  obtain ⟨s, hrun, hs⟩ := Option.map_eq_some_iff.mp hstored
  obtain ⟨htwo, hlater⟩ := Prod.mk.inj hs
  obtain ⟨s', hrun'⟩ := Option.isSome_iff_exists.mp hlater
  have hclock : ∀ e ∈ firstRows ++ aWeekLater, e.ReadsBy 604801000 := by
    simp [firstRows, aWeekLater, Event.ReadsBy]
  have hrestarted : Timely 604801000 restarted :=
    timely_start rfl (by simp [restarted]) (by simp [restarted, start])
  exact ⟨s, s', hrun, hrun', htwo, (last_week_is_found hrestarted hrun hrun' hclock).1⟩

end Performance

end OpticsAgent.Utility
