import Mathlib
import OpticsAgent.Docker.LogStreaming
import OpticsAgent.Ecma.Binary64

/-!
The part of `streamContainerLog` that sends the history: the batches, and the
progress between them. A progress is dropped while loading unless it is at 100
percent or at least five percent on.
-/

namespace OpticsAgent.Docker

open OpticsAgent.Ecma

inductive ProgressPhase where
  | loading | complete | streaming
deriving DecidableEq

structure DockerLogProgress where
  loaded : ℕ
  total : ℕ
  percent : ℕ
  phase : ProgressPhase
deriving DecidableEq

/-- A call of one of the callbacks. -/
inductive HistoryCall where
  | onHistory (entries : List DockerLogEntry)
  | onLog (entry : DockerLogEntry)
  | onProgress (progress : DockerLogProgress)
deriving DecidableEq

/-- `Math.round((loaded / total) * 100)`: both operations round to a double, and
a half is rounded up. -/
def progressPercent (loaded total : ℕ) : ℕ :=
  if 0 < total then ⌊roundMagnitude (roundMagnitude (loaded / total) * 100) + 1 / 2⌋₊ else 100

/-- The calls, and the new `lastPercent`. -/
def emitProgress (lastPercent : ℤ) (loaded total : ℕ) (phase : ProgressPhase) :
    List HistoryCall × ℤ :=
  let percent := progressPercent loaded total
  if phase = .loading ∧ percent ≠ 100 ∧ (percent : ℤ) < lastPercent + 5 then ([], lastPercent)
  else ([.onProgress ⟨loaded, total, percent, phase⟩], percent)

/-- `hasHistory` says whether the caller gave an `onHistory`. -/
def sendBatch (hasHistory : Bool) (batch : List DockerLogEntry) : List HistoryCall :=
  if hasHistory then [.onHistory batch] else batch.map .onLog

def sendBatches (hasHistory : Bool) (historicalLogs : List DockerLogEntry) (offset : ℕ)
    (lastPercent : ℤ) : List HistoryCall × ℤ :=
  let total := historicalLogs.length
  if offset < total then
    let batch := (historicalLogs.drop offset).take historyBatchSize
    let progress :=
      emitProgress lastPercent (min (offset + historyBatchSize) total) total .loading
    let later := sendBatches hasHistory historicalLogs (offset + historyBatchSize) progress.2
    (sendBatch hasHistory batch ++ progress.1 ++ later.1, later.2)
  else ([], lastPercent)
termination_by historicalLogs.length - offset
decreasing_by
  rw [historyBatchSize]
  omega

def sendHistory (hasHistory : Bool) (historicalLogs : List DockerLogEntry) : List HistoryCall :=
  let total := historicalLogs.length
  let first := emitProgress (-1) 0 total .loading
  let batches := sendBatches hasHistory historicalLogs 0 first.2
  let complete := emitProgress batches.2 total total .complete
  first.1 ++ batches.1 ++ complete.1 ++ [.onProgress ⟨total, total, 100, .streaming⟩]

/-! ## Percent -/

theorem progressPercent_self (total : ℕ) : progressPercent total total = 100 := by
  rw [progressPercent]
  split_ifs with hpos
  · have hone : ((total : ℚ) / total) = ((1 : ℕ) : ℚ) := by
      rw [div_self (by exact_mod_cast hpos.ne')]
      norm_num
    have hhundred : ((1 : ℕ) : ℚ) * 100 = ((100 : ℕ) : ℚ) := by norm_num
    rw [hone, roundMagnitude_natCast 1 (by norm_num), hhundred,
      roundMagnitude_natCast 100 (by norm_num)]
    norm_num
  · rfl

/-! ## What is sent -/

/-- The entries handed over. -/
def handedOver (calls : List HistoryCall) : List DockerLogEntry :=
  calls.flatMap fun call =>
    match call with
    | .onHistory entries => entries
    | .onLog entry => [entry]
    | .onProgress _ => []

/-- Batches are neither empty nor too long, and a progress tells how many entries
were handed over before it, with a percent that is on by five or full. -/
def Truthful (total : ℕ) : ℕ → ℤ → List HistoryCall → Prop
  | _, _, [] => True
  | loaded, last, .onHistory entries :: rest =>
      entries ≠ [] ∧ entries.length ≤ historyBatchSize ∧
        Truthful total (loaded + entries.length) last rest
  | loaded, last, .onLog _ :: rest => Truthful total (loaded + 1) last rest
  | loaded, last, .onProgress p :: rest =>
      p.loaded = loaded ∧ p.total = total ∧ p.percent = progressPercent loaded total ∧
        (p.percent = 100 ∨ last + 5 ≤ p.percent) ∧ Truthful total loaded p.percent rest

/-- The percent that was sent last. -/
def lastSent : ℤ → List HistoryCall → ℤ
  | last, [] => last
  | _, .onProgress p :: rest => lastSent p.percent rest
  | last, .onHistory _ :: rest => lastSent last rest
  | last, .onLog _ :: rest => lastSent last rest

@[simp] theorem handedOver_nil : handedOver [] = [] := rfl

@[simp] theorem handedOver_append (front back : List HistoryCall) :
    handedOver (front ++ back) = handedOver front ++ handedOver back :=
  List.flatMap_append

theorem lastSent_append (last : ℤ) (front back : List HistoryCall) :
    lastSent last (front ++ back) = lastSent (lastSent last front) back := by
  induction front generalizing last with
  | nil => rfl
  | cons call rest ih =>
      cases call with
      | onHistory entries => exact ih last
      | onLog entry => exact ih last
      | onProgress p => exact ih p.percent

theorem Truthful.append {total loaded : ℕ} {last : ℤ} {front back : List HistoryCall}
    (hfront : Truthful total loaded last front)
    (hback : Truthful total (loaded + (handedOver front).length) (lastSent last front) back) :
    Truthful total loaded last (front ++ back) := by
  induction front generalizing loaded last with
  | nil => exact hback
  | cons call rest ih =>
      cases call with
      | onHistory entries =>
          obtain ⟨hne, hlength, hrest⟩ := hfront
          refine ⟨hne, hlength, ih hrest ?_⟩
          have hcount : (handedOver (.onHistory entries :: rest)).length =
              entries.length + (handedOver rest).length := List.length_append
          rw [hcount, ← Nat.add_assoc] at hback
          exact hback
      | onLog entry =>
          refine ih hfront ?_
          have hcount : (handedOver (.onLog entry :: rest)).length =
              1 + (handedOver rest).length := List.length_append
          rw [hcount, ← Nat.add_assoc] at hback
          exact hback
      | onProgress p =>
          obtain ⟨hloaded, htotal, hpercent, hstep, hrest⟩ := hfront
          exact ⟨hloaded, htotal, hpercent, hstep, ih hrest hback⟩

/-! ## The parts -/

/-- What a part of the calls does: it hands entries over, is truthful where it
stands, and leaves the percent. -/
structure Part (total loaded : ℕ) (last : ℤ) (entries : List DockerLogEntry)
    (part : List HistoryCall × ℤ) : Prop where
  handed : handedOver part.1 = entries
  truthful : Truthful total loaded last part.1
  percent : lastSent last part.1 = part.2

theorem Part.append {total loaded : ℕ} {last : ℤ} {entries more : List DockerLogEntry}
    {front back : List HistoryCall × ℤ} (hfront : Part total loaded last entries front)
    (hback : Part total (loaded + entries.length) front.2 more back) :
    Part total loaded last (entries ++ more) (front.1 ++ back.1, back.2) where
  handed := by rw [handedOver_append, hfront.handed, hback.handed]
  truthful := by
    refine hfront.truthful.append ?_
    rw [hfront.handed, hfront.percent]
    exact hback.truthful
  percent := by rw [lastSent_append, hfront.percent, hback.percent]

theorem part_emitProgress (last : ℤ) (loaded total : ℕ) {phase : ProgressPhase}
    (hphase : phase = .loading ∨ loaded = total) :
    Part total loaded last [] (emitProgress last loaded total phase) := by
  rw [emitProgress]
  split_ifs with hquiet
  · exact ⟨rfl, trivial, rfl⟩
  · refine ⟨rfl, ⟨rfl, rfl, rfl, ?_, trivial⟩, rfl⟩
    rcases hphase with rfl | rfl
    · rcases eq_or_ne (progressPercent loaded total) 100 with hfull | hfull
      · exact .inl hfull
      · exact .inr (not_lt.mp fun hlow => hquiet ⟨rfl, hfull, hlow⟩)
    · exact .inl (progressPercent_self loaded)

theorem truthful_onLog (total loaded : ℕ) (last : ℤ) (entries : List DockerLogEntry) :
    Truthful total loaded last (entries.map .onLog) := by
  induction entries generalizing loaded with
  | nil => trivial
  | cons entry rest ih => exact ih (loaded + 1)

theorem part_sendBatch (hasHistory : Bool) (total loaded : ℕ) (last : ℤ)
    {batch : List DockerLogEntry} (hne : batch ≠ []) (hlength : batch.length ≤ historyBatchSize) :
    Part total loaded last batch (sendBatch hasHistory batch, last) := by
  cases hasHistory with
  | true => exact ⟨by simp [sendBatch, handedOver], ⟨hne, hlength, trivial⟩, rfl⟩
  | false =>
      refine ⟨?_, truthful_onLog total loaded last batch, ?_⟩
      · simp [sendBatch, handedOver, List.flatMap_map]
      · clear hne hlength
        change lastSent last (batch.map .onLog) = last
        induction batch with
        | nil => rfl
        | cons entry rest ih => exact ih

theorem part_sendBatches (hasHistory : Bool) (historicalLogs : List DockerLogEntry) (offset : ℕ)
    (last : ℤ) :
    Part historicalLogs.length (min offset historicalLogs.length) last
      (historicalLogs.drop offset) (sendBatches hasHistory historicalLogs offset last) := by
  induction offset, last using sendBatches.induct hasHistory historicalLogs with
  | case1 offset last total hmore progress ih =>
      obtain ⟨batch, hbatch⟩ : ∃ batch,
        batch = (historicalLogs.drop offset).take historyBatchSize := ⟨_, rfl⟩
      have hcount : batch.length = min historyBatchSize (total - offset) := by
        rw [hbatch, List.length_take, List.length_drop]
      have hsize : 0 < historyBatchSize := by decide
      have hne : batch ≠ [] := List.ne_nil_of_length_pos (by omega)
      have hloaded : min offset total + batch.length = min (offset + historyBatchSize) total := by
        omega
      have hsplit : batch ++ historicalLogs.drop (offset + historyBatchSize) =
          historicalLogs.drop offset := by
        rw [hbatch, ← List.drop_drop, List.take_append_drop]
      have hsent := part_sendBatch hasHistory total (min offset total) last hne (by omega)
      have hprogress : Part total (min offset total + batch.length) last [] progress := by
        rw [hloaded]
        exact part_emitProgress last _ total (.inl rfl)
      have hfront := hsent.append hprogress
      rw [List.append_nil] at hfront
      have hwhole := hfront.append (hloaded ▸ ih)
      rw [hsplit, hbatch] at hwhole
      rw [sendBatches, if_pos hmore]
      exact hwhole
  | case2 offset last total hdone =>
      rw [sendBatches, if_neg hdone, List.drop_eq_nil_of_le (not_lt.mp hdone)]
      exact ⟨rfl, trivial, rfl⟩

/-- Only the loading is told while the batches are sent. -/
def OnlyLoading (calls : List HistoryCall) : Prop :=
  ∀ p, .onProgress p ∈ calls → p.phase = .loading

theorem OnlyLoading.append {front back : List HistoryCall} (hfront : OnlyLoading front)
    (hback : OnlyLoading back) : OnlyLoading (front ++ back) := by
  intro p hp
  rcases List.mem_append.mp hp with hp | hp
  · exact hfront p hp
  · exact hback p hp

theorem onlyLoading_emitProgress (last : ℤ) (loaded total : ℕ) :
    OnlyLoading (emitProgress last loaded total .loading).1 := by
  intro p hp
  rw [emitProgress] at hp
  split_ifs at hp with hquiet
  · exact absurd hp List.not_mem_nil
  · rw [List.mem_singleton, HistoryCall.onProgress.injEq] at hp
    rw [hp]

theorem onlyLoading_sendBatch (hasHistory : Bool) (batch : List DockerLogEntry) :
    OnlyLoading (sendBatch hasHistory batch) := by
  intro p hp
  cases hasHistory with
  | true => simp [sendBatch] at hp
  | false => simp [sendBatch] at hp

theorem onlyLoading_sendBatches (hasHistory : Bool) (historicalLogs : List DockerLogEntry)
    (offset : ℕ) (last : ℤ) :
    OnlyLoading (sendBatches hasHistory historicalLogs offset last).1 := by
  induction offset, last using sendBatches.induct hasHistory historicalLogs with
  | case1 offset last total hmore progress ih =>
      rw [sendBatches, if_pos hmore]
      exact ((onlyLoading_sendBatch _ _).append (onlyLoading_emitProgress _ _ _)).append ih
  | case2 offset last total hdone =>
      rw [sendBatches, if_neg hdone]
      exact fun p hp => absurd hp List.not_mem_nil

theorem emitProgress_complete (last : ℤ) (total : ℕ) :
    emitProgress last total total .complete =
      ([.onProgress ⟨total, total, 100, .complete⟩], 100) := by
  rw [emitProgress, if_neg (fun h => ProgressPhase.noConfusion h.1), progressPercent_self]
  rfl

/-! ## The whole history -/

/-- Every entry is handed over once and in order, each progress tells the truth, and
it ends with complete and streaming. -/
theorem history_told_truthfully (hasHistory : Bool) (historicalLogs : List DockerLogEntry) :
    Truthful historicalLogs.length 0 (-1) (sendHistory hasHistory historicalLogs) ∧
      ∃ loading, OnlyLoading loading ∧ handedOver loading = historicalLogs ∧
        sendHistory hasHistory historicalLogs = loading ++
          [.onProgress ⟨historicalLogs.length, historicalLogs.length, 100, .complete⟩,
            .onProgress ⟨historicalLogs.length, historicalLogs.length, 100, .streaming⟩] := by
  obtain ⟨total, htotal⟩ : ∃ total, total = historicalLogs.length := ⟨_, rfl⟩
  obtain ⟨first, hfirst⟩ : ∃ first, first = emitProgress (-1) 0 total .loading := ⟨_, rfl⟩
  obtain ⟨batches, hbatches⟩ : ∃ batches,
    batches = sendBatches hasHistory historicalLogs 0 first.2 := ⟨_, rfl⟩
  have hstart : Part total 0 (-1) [] first := hfirst ▸ part_emitProgress _ _ _ (.inl rfl)
  have hsent : Part total 0 first.2 historicalLogs batches := by
    have hall := part_sendBatches hasHistory historicalLogs 0 first.2
    rw [Nat.zero_min, List.drop_zero, ← htotal, ← hbatches] at hall
    exact hall
  have hloading := hstart.append hsent
  rw [List.nil_append] at hloading
  have hend : sendHistory hasHistory historicalLogs = first.1 ++ batches.1 ++
      [.onProgress ⟨total, total, 100, .complete⟩,
        .onProgress ⟨total, total, 100, .streaming⟩] := by
    rw [sendHistory, ← htotal, ← hfirst, ← hbatches, emitProgress_complete, List.append_assoc]
    rfl
  rw [hend, ← htotal]
  refine ⟨hloading.truthful.append ?_, first.1 ++ batches.1, ?_, hloading.handed, rfl⟩
  · rw [hloading.handed, ← htotal, Nat.zero_add]
    have hfull := (progressPercent_self total).symm
    exact ⟨rfl, rfl, hfull, .inl rfl, rfl, rfl, hfull, .inl rfl, trivial⟩
  · rw [hfirst, hbatches]
    exact (onlyLoading_emitProgress _ _ _).append (onlyLoading_sendBatches _ _ _ _)

end OpticsAgent.Docker
