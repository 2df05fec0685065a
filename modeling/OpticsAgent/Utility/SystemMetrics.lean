import Mathlib
import OpticsAgent.Ecma.NumberText

/-!
`SystemMetricsUtility`: samples are accumulated for the CPU and the memory, and
`getMetrics` gives their peak, average and minimum and starts over. Samples and
sums are exact.
-/

namespace OpticsAgent.Utility

open OpticsAgent.Ecma

/-- The digits `parseInt` reads in front of the point and the first two behind
it, of the text the number is printed as. For numbers that are not negative, as
the metrics are; the sign of another one is not read. -/
def numberSlicer (num : ℚ) : ℚ :=
  match splitUnit 46 (Number.roundSigned false num).toText with
  | [] => 0
  | first :: rest =>
      let integerPart := decimalValue (spanDigits first).1
      let decimals := (spanDigits ((rest.head?.getD []).take 2)).1
      integerPart + decimalValue decimals / 10 ^ decimals.length

structure ResourceMetric where
  peak : ℚ
  average : ℚ
  min : ℚ

structure MemoryMetric extends ResourceMetric where
  totalMemory : ℚ

structure SampleCounts where
  cpu : ℕ
  mem : ℕ

structure SystemMetrics where
  timestamp : ℤ
  cpu : ResourceMetric
  mem : MemoryMetric
  samples : SampleCounts

/-- Zero for a value that is not finite. -/
def finite : WithTop ℚ≥0 → ℚ
  | ⊤ => 0
  | some value => numberSlicer value

/-- Zero without samples. -/
def average (sum : ℚ≥0) (samples : ℕ) : ℚ :=
  if 0 < samples then numberSlicer (sum / samples) else 0

/-- The variables of one resource. -/
structure Meter where
  samples : ℕ := 0
  max : ℚ≥0 := 0
  min : WithTop ℚ≥0 := ⊤
  sum : ℚ≥0 := 0

namespace Meter

def collect (meter : Meter) (sample : ℚ≥0) : Meter where
  samples := meter.samples + 1
  max := meter.max ⊔ sample
  min := meter.min ⊓ sample
  sum := meter.sum + sample

def metric (meter : Meter) : ResourceMetric where
  peak := finite meter.max
  average := Utility.average meter.sum meter.samples
  min := finite meter.min

end Meter

structure SystemMetricsUtility where
  cpu : Meter := {}
  mem : Meter := {}
  currentCpuUsage : ℚ≥0 := 0
  totalMemory : ℚ≥0 := 0
  currentMemoryUsed : ℚ≥0 := 0

namespace SystemMetricsUtility

/-- The callback of `os.cpuUsage`. -/
def collectCpu (utility : SystemMetricsUtility) (usage : ℚ≥0) : SystemMetricsUtility :=
  { utility with currentCpuUsage := usage, cpu := utility.cpu.collect usage }

/-- `used` is what is left of the total without the free memory. -/
def collectMem (utility : SystemMetricsUtility) (used total : ℚ≥0) : SystemMetricsUtility :=
  { utility with
    currentMemoryUsed := used
    mem := utility.mem.collect used
    totalMemory := total }

/-- The total is not accumulated, so it stays. -/
def reset (utility : SystemMetricsUtility) : SystemMetricsUtility :=
  { utility with cpu := {}, mem := {} }

def getMetrics (utility : SystemMetricsUtility) (dateNow : ℤ) :
    SystemMetrics × SystemMetricsUtility :=
  ({ timestamp := dateNow
     cpu := utility.cpu.metric
     mem := { utility.mem.metric with totalMemory := finite utility.totalMemory }
     samples := ⟨utility.cpu.samples, utility.mem.samples⟩ }, utility.reset)

end SystemMetricsUtility

/-! ## What a meter has collected -/

/-- The metric of the samples, with zeros when there are none. -/
structure Summarises (xs : List ℚ≥0) (metric : ResourceMetric) (samples : ℕ) : Prop where
  counted : samples = xs.length
  none : xs = [] → metric = ⟨0, 0, 0⟩
  peak : xs ≠ [] → ∃ top, IsGreatest {x | x ∈ xs} top ∧ metric.peak = numberSlicer top
  min : xs ≠ [] → ∃ bottom, IsLeast {x | x ∈ xs} bottom ∧ metric.min = numberSlicer bottom
  average : xs ≠ [] → metric.average = numberSlicer (xs.sum / xs.length)

namespace Meter

def collectAll (xs : List ℚ≥0) : Meter := xs.foldl collect {}

theorem collectAll_append (xs : List ℚ≥0) (x : ℚ≥0) :
    collectAll (xs ++ [x]) = (collectAll xs).collect x := by
  rw [collectAll, List.foldl_append]
  rfl

theorem samples_collectAll (xs : List ℚ≥0) : (collectAll xs).samples = xs.length := by
  induction xs using List.reverseRecOn with
  | nil => rfl
  | append_singleton rest x ih =>
      rw [collectAll_append, collect, ih, List.length_append, List.length_singleton]

theorem sum_collectAll (xs : List ℚ≥0) : (collectAll xs).sum = xs.sum := by
  induction xs using List.reverseRecOn with
  | nil => rfl
  | append_singleton rest x ih =>
      rw [collectAll_append, collect, ih, List.sum_append, List.sum_singleton]

private theorem setOf_mem_concat (rest : List ℚ≥0) (x : ℚ≥0) :
    {y | y ∈ rest ++ [x]} = {y | y ∈ rest} ∪ {x} := by
  ext y
  rw [Set.mem_ofPred_eq, List.mem_append, List.mem_singleton]
  exact Iff.rfl

/-- Zero is below every sample, so the first one replaces it. -/
theorem isGreatest_max_collectAll {xs : List ℚ≥0} (h : xs ≠ []) :
    IsGreatest {x | x ∈ xs} (collectAll xs).max := by
  induction xs using List.reverseRecOn with
  | nil => exact absurd rfl h
  | append_singleton rest x ih =>
      rw [collectAll_append, setOf_mem_concat]
      by_cases hrest : rest = []
      · subst hrest
        have hmax : ((collectAll []).collect x).max = x := zero_max x
        rw [hmax]
        simp
      · exact (ih hrest).union isGreatest_singleton

/-- `Infinity` is above every sample, so the first one replaces it. -/
theorem isLeast_min_collectAll {xs : List ℚ≥0} (h : xs ≠ []) :
    ∃ bottom, IsLeast {x | x ∈ xs} bottom ∧ (collectAll xs).min = bottom := by
  induction xs using List.reverseRecOn with
  | nil => exact absurd rfl h
  | append_singleton rest x ih =>
      rw [collectAll_append, setOf_mem_concat]
      by_cases hrest : rest = []
      · subst hrest
        refine ⟨x, ?_, top_inf_eq _⟩
        simp
      · obtain ⟨bottom, hleast, hmin⟩ := ih hrest
        refine ⟨bottom ⊓ x, hleast.union isLeast_singleton, ?_⟩
        rw [collect, hmin]
        rfl

theorem numberSlicer_zero : numberSlicer 0 = 0 := by decide +kernel

theorem metric_collectAll_nil : (collectAll []).metric = ⟨0, 0, 0⟩ := by
  have hpeak : finite ((0 : ℚ≥0) : WithTop ℚ≥0) = 0 := numberSlicer_zero
  exact congrArg (fun peak => ResourceMetric.mk peak 0 0) hpeak

theorem summarises_collectAll (xs : List ℚ≥0) :
    Summarises xs (collectAll xs).metric (collectAll xs).samples := by
  refine ⟨samples_collectAll xs, ?_, ?_, ?_, ?_⟩
  · rintro rfl
    exact metric_collectAll_nil
  · intro h
    exact ⟨_, isGreatest_max_collectAll h, rfl⟩
  · intro h
    obtain ⟨bottom, hleast, hmin⟩ := isLeast_min_collectAll h
    exact ⟨bottom, hleast, congrArg finite hmin⟩
  · intro h
    have hpos : 0 < (collectAll xs).samples := by
      rw [samples_collectAll]
      exact List.length_pos_of_ne_nil h
    rw [metric, Utility.average, if_pos hpos, sum_collectAll, samples_collectAll]

end Meter

end OpticsAgent.Utility
