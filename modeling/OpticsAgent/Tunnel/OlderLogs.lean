import Mathlib
import OpticsAgent.Docker.LogPaging
import OpticsAgent.Docker.LogSafety
import OpticsAgent.Tunnel.Commands

/-!
The LOAD_OLDER_LOG command: one page of older log lines, and whether there are
more. The flag compares the number of entries with the limit asked for, while
docker was asked for at most 5000 lines and some lines have no entry.
-/

namespace OpticsAgent.Tunnel

open OpticsAgent.Ecma OpticsAgent.Node OpticsAgent.Lib OpticsAgent.Docker OpticsAgent.Service

/-- The payload of a `service-log-history`. -/
structure HistoryAnswer where
  serviceIndex : ℤ
  before : JsString
  logs : List DockerLogEntry
  markers : List Marker
  hasMore : Bool

variable (stack : ℕ) (newDate : JsString → Option ℤ) (docker : List JsString → Exit)
  (casing : CaseMapping) (markers : List Marker)

/-- The answer to LOAD_OLDER_LOG, with the markers the database has. The limit is
a number of lines; `Math.max(1, ...)` makes one line of a limit below one. -/
def loadOlderLog (payload : ServicePayload) (before : JsString) (limit : Option ℤ) :
    Except RangeError (Option HistoryAnswer) :=
  match getServiceCommandPayload payload with
  | none => return none
  | some payload =>
      if before = [] then return none
      else do
        let logs ← loadOlderContainerLogs stack docker newDate casing
          (toDockerName casing payload.serviceName) payload.deployPreset before
            (limit.getD 1000).toNat
        return some
          { serviceIndex := payload.serviceIndex
            before := before
            logs := logs
            markers := markers
            hasMore := limit.getD 1000 ≤ logs.length }

/-! ## The end of the history -/

/-- The number of lines asked for. -/
def safeLimit (limit : ℤ) : ℕ := max 1 (min limit.toNat 5000)

section History

variable (containerName : JsString) (label : Option ComposeLabel) (log : List LogLine)

/-- The line at a position of the lines docker may print is among those returned. -/
def Returned (limit : ℤ) (before : ℤ) (i : ℕ) : Prop :=
  (upTo log (before - 1)).length - safeLimit limit ≤ i ∧
    ∃ line, (upTo log (before - 1))[i]? = some line ∧
      (line.entry stack containerName label).isSome

/-- No line that is not blank is older than the ones returned, or than the time
where none is. -/
structure NothingOlder (limit : ℤ) (before : ℤ) : Prop where
  behind : ∀ i line, (upTo log (before - 1))[i]? = some line → line.isBlank = false →
    ∃ j ≤ i, Returned stack containerName label log limit before j
  blank : (∀ j, ¬ Returned stack containerName label log limit before j) →
    ∀ line ∈ log, (line.time : ℤ) < before * 1000000 → line.isBlank = true

/-- Without the blank lines in front, the log up to a millisecond before the time
is no longer than a page, and starts with a line that has an entry; or nothing but
blank lines lies before the time. -/
def ShortLog (limit : ℤ) (before : ℤ) : Prop :=
  (∀ line ∈ log, (line.time : ℤ) < before * 1000000 → line.isBlank = true) ∨
    ∃ first rest, (upTo log (before - 1)).dropWhile LogLine.isBlank = first :: rest ∧
      (first.entry stack containerName label).isSome ∧ rest.length < safeLimit limit

/-- The last `limit` lines all have entries, and docker may be asked for them. -/
def FullPage (limit : ℤ) (before : ℤ) : Prop :=
  limit ≤ 0 ∨ (limit ≤ 5000 ∧ limit ≤ (upTo log (before - 1)).length ∧
    ∀ line ∈ pageOf log limit.toNat (before - 1), (line.entry stack containerName label).isSome)

/-- A line of the page cannot be read, so there is no answer. -/
def Unreadable (limit : ℤ) (before : ℤ) : Prop :=
  ∃ line ∈ pageOf log (safeLimit limit) (before - 1), ∃ e,
    line.reading stack containerName label = .error e

end History

/-- When the command answers that there is no more, it has returned the entries of
the page, and no line that is not blank is older. -/
def Truthful (payload : ServicePayload) (before : JsString) (limit : Option ℤ)
    (label : Option ComposeLabel) (log : List LogLine) : Prop :=
  ∀ answer,
    loadOlderLog stack newDate docker casing markers payload before limit = .ok (some answer) →
    answer.hasMore = false → ∀ time, newDate before = some time →
      answer.logs.Perm ((pageOf log (safeLimit (limit.getD 1000)) (time - 1)).filterMap
        (LogLine.entry stack (toDockerName casing payload.serviceName) label)) ∧
      NothingOlder stack (toDockerName casing payload.serviceName) label log (limit.getD 1000) time

/-- The command does nothing. -/
def Ignored (payload : ServicePayload) (before : JsString) : Prop :=
  getServiceCommandPayload payload = none ∨ before = []

instance (payload : ServicePayload) (before : JsString) : Decidable (Ignored payload before) :=
  inferInstanceAs (Decidable (_ ∨ _))

theorem loadOlderLog_of_ignored {payload : ServicePayload} {before : JsString}
    (h : Ignored payload before) (limit : Option ℤ) :
    loadOlderLog stack newDate docker casing markers payload before limit = .ok none := by
  unfold loadOlderLog
  rcases h with hpayload | rfl
  · rw [hpayload]
    rfl
  · cases getServiceCommandPayload payload <;> rfl

theorem eq_of_getServiceCommandPayload {payload accepted : ServicePayload}
    (h : getServiceCommandPayload payload = some accepted) : accepted = payload := by
  unfold getServiceCommandPayload at h
  split_ifs at h
  exact (Option.some.inj h).symm

theorem loadOlderLog_of_not_ignored {payload : ServicePayload} {before : JsString}
    (h : ¬ Ignored payload before) (limit : Option ℤ) :
    loadOlderLog stack newDate docker casing markers payload before limit =
      (loadOlderContainerLogs stack docker newDate casing
        (toDockerName casing payload.serviceName) payload.deployPreset before
          (limit.getD 1000).toNat).map fun logs => some
          { serviceIndex := payload.serviceIndex
            before := before
            logs := logs
            markers := markers
            hasMore := limit.getD 1000 ≤ logs.length } := by
  obtain ⟨hpayload, hbefore⟩ := not_or.mp h
  obtain ⟨accepted, haccepted⟩ := Option.ne_none_iff_exists'.mp hpayload
  obtain rfl := eq_of_getServiceCommandPayload haccepted
  unfold loadOlderLog
  rw [haccepted]
  simp only [if_neg hbefore]
  cases loadOlderContainerLogs stack docker newDate casing
    (toDockerName casing accepted.serviceName) accepted.deployPreset before
      (limit.getD 1000).toNat <;> rfl

theorem loadOlder_of_date {before : JsString} {time : ℤ} (hdate : newDate before = some time)
    (hrange : inTimeRange (time - 1) = true) (containerName deployPreset : JsString) (limit : ℤ) :
    loadOlderContainerLogs stack docker newDate casing containerName deployPreset before
        limit.toNat =
      fetchLogEntries stack docker containerName (logArgs containerName
        (isComposePreset casing deployPreset) (countText (safeLimit limit))
          (some (toISOString (time - 1)))) := by
  unfold loadOlderContainerLogs untilOf
  rw [hdate, Option.bind_some, if_pos hrange]
  rfl

/-- The flag is set exactly when the page is full. -/
theorem limit_le_length_iff {containerName : JsString} {label : Option ComposeLabel}
    {log : List LogLine} {limit : ℤ} {before : ℤ} {logs : List DockerLogEntry}
    (h : logs.Perm ((pageOf log (safeLimit limit) (before - 1)).filterMap
      (LogLine.entry stack containerName label))) :
    limit ≤ logs.length ↔ FullPage stack containerName label log limit before := by
  have hlength := h.length_eq
  have hpage : (pageOf log (safeLimit limit) (before - 1)).length =
      min (safeLimit limit) (upTo log (before - 1)).length := by
    rw [pageOf, List.rtake, List.length_drop]
    omega
  have hle := List.length_filterMap_le (LogLine.entry stack containerName label)
    (pageOf log (safeLimit limit) (before - 1))
  unfold FullPage
  by_cases hpositive : limit ≤ 0
  · exact iff_of_true (by omega) (.inl hpositive)
  · have hsafe : safeLimit limit = min limit.toNat 5000 := by
      unfold safeLimit
      omega
    constructor
    · intro hlimit
      have hsame : safeLimit limit = limit.toNat := by omega
      refine .inr ⟨by omega, by omega, ?_⟩
      rw [← hsame]
      exact List.filterMap_length_eq_length.mp (by omega)
    · rintro (hzero | ⟨hcap, hlong, hall⟩)
      · exact absurd hzero hpositive
      · have hsame : safeLimit limit = limit.toNat := by omega
        rw [← hsame] at hall
        have hfull := List.filterMap_length_eq_length.mpr hall
        omega

theorem getElem?_takeWhile_append {log : List LogLine} {first : LogLine} {rest : List LogLine}
    (h : log.dropWhile LogLine.isBlank = first :: rest) :
    log[(log.takeWhile LogLine.isBlank).length]? = some first ∧
      log.length = (log.takeWhile LogLine.isBlank).length + (rest.length + 1) ∧
      ∀ i line, log[i]? = some line → line.isBlank = false →
        (log.takeWhile LogLine.isBlank).length ≤ i := by
  have hpassed : ∀ line ∈ log.takeWhile LogLine.isBlank, line.isBlank = true :=
    fun line hline => List.mem_takeWhile_imp hline
  have hsplit := List.takeWhile_append_dropWhile (p := LogLine.isBlank) (l := log)
  rw [h] at hsplit
  generalize log.takeWhile LogLine.isBlank = front at hpassed hsplit ⊢
  subst hsplit
  refine ⟨by simp, by simp, fun i line hline hblank => ?_⟩
  by_contra hlt
  rw [List.getElem?_append_left (not_le.mp hlt)] at hline
  rw [hpassed line (List.mem_of_getElem? hline)] at hblank
  cases hblank

/-- The log is short exactly when the first line that is not blank is returned. -/
theorem nothingOlder_iff (containerName : JsString) (label : Option ComposeLabel)
    (log : List LogLine) (limit before : ℤ) :
    NothingOlder stack containerName label log limit before ↔
      ShortLog stack containerName label log limit before := by
  have hshown : ∀ {j : ℕ}, Returned stack containerName label log limit before j →
      ∃ line, (upTo log (before - 1))[j]? = some line ∧ line.isBlank = false := by
    rintro j ⟨-, line, hline, hentry⟩
    refine ⟨line, hline, ?_⟩
    by_contra hblank
    rw [line.entry_of_isBlank stack containerName label (Bool.not_eq_false _ ▸ hblank)] at hentry
    cases hentry
  have hpositive : 1 ≤ safeLimit limit := le_max_left _ _
  cases hfirst : (upTo log (before - 1)).dropWhile LogLine.isBlank with
  | nil =>
      have hall : ∀ line ∈ upTo log (before - 1), line.isBlank = true := by
        simpa using List.dropWhile_eq_nil_iff.mp hfirst
      have hnone : ∀ j, ¬ Returned stack containerName label log limit before j := by
        intro j hj
        obtain ⟨line, hline, hblank⟩ := hshown hj
        rw [hall line (List.mem_of_getElem? hline)] at hblank
        cases hblank
      constructor
      · exact fun h => .inl (h.blank hnone)
      · rintro (hblank | ⟨first, rest, hsplit, -⟩)
        · refine ⟨fun i line hline hnot => ?_, fun _ => hblank⟩
          rw [hall line (List.mem_of_getElem? hline)] at hnot
          cases hnot
        · cases hfirst.symm.trans hsplit
  | cons first rest =>
      obtain ⟨hget, hlength, hbehind⟩ := getElem?_takeWhile_append hfirst
      have hnonblank : first.isBlank = false := by
        have hhead := List.head?_dropWhile_not LogLine.isBlank (upTo log (before - 1))
        rw [hfirst] at hhead
        simpa using hhead
      constructor
      · intro h
        obtain ⟨j, hj, hreturned⟩ := h.behind _ first hget hnonblank
        obtain ⟨line, hline, hblank⟩ := hshown hreturned
        obtain rfl := le_antisymm hj (hbehind j line hline hblank)
        obtain ⟨hpage, found, hfound, hentry⟩ := hreturned
        obtain rfl := Option.some.inj (hget.symm.trans hfound)
        exact .inr ⟨first, rest, hfirst, hentry, by omega⟩
      · rintro (hblank | ⟨other, more, hsplit, hentry, hshort⟩)
        · have hmem : first ∈ upTo log (before - 1) := List.mem_of_getElem? hget
          obtain ⟨hlog, htime⟩ := List.mem_filter.mp hmem
          rw [hblank first hlog (by have := of_decide_eq_true htime; omega)] at hnonblank
          cases hnonblank
        · obtain ⟨rfl, rfl⟩ := List.cons.inj (hfirst.symm.trans hsplit)
          have hreturned : Returned stack containerName label log limit before
              ((upTo log (before - 1)).takeWhile LogLine.isBlank).length :=
            ⟨by omega, first, hget, hentry⟩
          exact ⟨fun i line hline hnot => ⟨_, hbehind i line hline hnot, hreturned⟩,
            fun hnone => absurd hreturned (hnone _)⟩

def webService : ServicePayload := ⟨1, js "web", js "DOCKERFILE"⟩

theorem blank_oneLine : (utf8Bytes (js " ")).all (fun b => !isNewline b) = true := by
  decide +kernel

theorem exists_answer {answer : Except RangeError (Option HistoryAnswer)}
    (h : (answer.toOption.join.map (·.hasMore)) = some false) :
    ∃ found, answer = .ok (some found) ∧ found.hasMore = false := by
  match answer, h with
  | .ok (some found), h => exact ⟨found, rfl, Option.some.inj h⟩

/-- One line, and a blank one behind it. -/
def blankEnd : List LogLine :=
  [sampleLine 500000 (utf8Bytes (js "ready")) ready_oneLine,
    sampleLine 900000 (utf8Bytes (js " ")) blank_oneLine]

/-- The parser and `runtimeLogEntry` return. -/
def Parses (line : JsString) : Prop :=
  ∀ containerName stderr, (∃ entry, parseDockerLogLine stack line containerName = .ok entry) ∧
    ∃ entry, runtimeLogEntry stack line containerName stderr = .ok entry

/-- The command throws for the time it is given, never for a line it reads. -/
def AnswersOlder (payload : ServicePayload) (before : JsString) (limit : Option ℤ) : Prop :=
  ∀ e, loadOlderLog stack newDate docker casing markers payload before limit = .error e →
    untilOf newDate before = .error e

/-- The lines docker prints for the command. -/
def olderLines (payload : ServicePayload) (before : JsString) (limit : Option ℤ) :
    List JsString :=
  match untilOf newDate before with
  | .error _ => []
  | .ok time =>
      if Ignored payload before then []
      else fetchedLines (runSync docker (logArgs (toDockerName casing payload.serviceName)
        (isComposePreset casing payload.deployPreset) (countText (safeLimit (limit.getD 1000)))
          (some time)))

theorem parses_iff (line : JsString) : Parses stack line ↔ Parsable stack line := by
  constructor
  · exact fun h => (parseDockerLogLine_ok_iff stack line none).mp (h none false).1
  · exact fun h containerName stderr =>
      ⟨(parseDockerLogLine_ok_iff stack line containerName).mpr h,
        (runtimeLogEntry_ok_iff stack line containerName stderr).mpr h⟩

theorem fetchLogEntries_ok_iff (containerName : JsString) (args : List JsString) :
    (∃ entries, fetchLogEntries stack docker containerName args = .ok entries) ↔
      ∀ line ∈ fetchedLines (runSync docker args), Parsable stack line := by
  constructor
  · rintro ⟨entries, hentries⟩
    exact parsable_of_fetched hentries
  · intro h
    obtain ⟨entries, hentries, -⟩ := (fetches_iff stack docker containerName args).mpr h
    exact ⟨entries, hentries⟩

theorem answersOlder_iff (payload : ServicePayload) (before : JsString) (limit : Option ℤ) :
    AnswersOlder stack newDate docker casing markers payload before limit ↔
      ∀ line ∈ olderLines newDate docker casing payload before limit, Parsable stack line := by
  unfold AnswersOlder olderLines
  by_cases hignored : Ignored payload before
  · refine iff_of_true ?_ ?_
    · intro e he
      rw [loadOlderLog_of_ignored stack newDate docker casing markers hignored] at he
      cases he
    · cases untilOf newDate before <;> simp [hignored]
  rw [loadOlderLog_of_not_ignored stack newDate docker casing markers hignored]
  unfold loadOlderContainerLogs
  cases huntil : untilOf newDate before with
  | error e =>
      refine iff_of_true ?_ (by simp)
      intro e' he'
      exact congrArg Except.error (Except.error.inj he')
  | ok time =>
      simp only [if_neg hignored]
      rw [← fetchLogEntries_ok_iff stack docker (toDockerName casing payload.serviceName)]
      change (∀ e, (fetchLogEntries _ _ _ _).map _ = _ → _) ↔
        ∃ entries, fetchLogEntries stack docker _ (logArgs _ _ (countText (max 1
          (min (limit.getD 1000).toNat 5000))) _) = _
      cases fetchLogEntries stack docker (toDockerName casing payload.serviceName) _ with
      | ok entries => simp [Except.map]
      | error e => simp [Except.map]

/-- The parser, the queries, the live log and the command each go through exactly
when every line they read can be parsed: it holds no impossible date, and no more
compose prefixes than the stack has room for. -/
theorem log_parsing_safe_iff (stack : ℕ) (line : JsString) (newDate : JsString → Option ℤ)
    (docker : List JsString → Exit) (casing : CaseMapping) (markers : List Marker)
    (containerName : JsString) (args : List JsString) (chunk : List Byte) (stderr : Bool)
    (payload : ServicePayload) (before : JsString) (limit : Option ℤ) :
    (Parses stack line ↔ Parsable stack line) ∧
      (Fetches stack docker containerName args ↔
        ∀ line ∈ fetchedLines (runSync docker args), Parsable stack line) ∧
      (Pushes stack chunk containerName stderr ↔
        ∀ line ∈ outputLines (utf8Text chunk), Parsable stack line) ∧
      (AnswersOlder stack newDate docker casing markers payload before limit ↔
        ∀ line ∈ olderLines newDate docker casing payload before limit, Parsable stack line) :=
  ⟨parses_iff stack line, fetches_iff stack docker containerName args,
    pushes_iff stack chunk containerName stderr,
    answersOlder_iff stack newDate docker casing markers payload before limit⟩

/-- A line with the shape of a timestamp and no date in it. -/
def oddLine : JsString := js "2026-13-45T99:99:99Z boom"

/-- The line throws, and takes the lines next to it along. -/
theorem log_parsing_safe_fails :
    ¬ Parses 1000 oddLine ∧
      ¬ Fetches 1000 (fun _ => ⟨some 0, utf8Bytes (js "ready\n" ++ oddLine ++ js "\n"), [], {}⟩)
        (js "web") [] ∧
      ¬ Pushes 1000 (utf8Bytes (oddLine ++ js "\nready\n")) (js "web") false := by
  refine ⟨fun h => ?_, fun h => ?_, fun h => ?_⟩
  · obtain ⟨entry, hentry⟩ := (h none false).1
    have hthrows : (parseDockerLogLine 1000 oddLine none).toOption.isSome = false := by
      decide +kernel
    rw [hentry] at hthrows
    cases hthrows
  · obtain ⟨entries, hentries, -⟩ := h
    have hthrows : (fetchLogEntries 1000 (fun _ => ⟨some 0, utf8Bytes (js "ready\n" ++ oddLine ++
        js "\n"), [], {}⟩) (js "web") []).toOption.isSome = false := by
      decide +kernel
    rw [hentries] at hthrows
    cases hthrows
  · have hthrows : (pushLines 1000 (utf8Bytes (oddLine ++ js "\nready\n")) (js "web")
        false).2.isSome = true := by
      decide +kernel
    rw [congrArg Prod.snd h] at hthrows
    cases hthrows

end OpticsAgent.Tunnel
