import Mathlib
import OpticsAgent.Docker.LogService

/-!
When the log parser throws. The timestamp expression accepts shapes of digits,
so a line may hold a date that does not exist, and `toISOString` throws for it;
and the parser calls itself for every compose prefix, so a line may have more of
them than the stack has room for. The exception leaves the parser, the loop over
the lines and the query, so one such line costs every other line its entry.
-/

namespace OpticsAgent.Docker

open OpticsAgent.Ecma OpticsAgent.Node OpticsAgent.Lib

/-- The parser comes to a timestamp that is no date, in the line or in what
compose prefixes leave of it. -/
inductive OddDate : JsString → Prop
  | stamp {line message : JsString} {front : Option JsString} {stamp : Stamp}
      (found : matchTimestamp (cleanLine line) = some (front, stamp, message))
      (odd : stamp.time = none) : OddDate line
  | nested {line name message : JsString} (plain : matchTimestamp (cleanLine line) = none)
      (composed : composeLine (cleanLine line) = some (name, message)) (odd : OddDate message) :
      OddDate line

/-- The line has at least so many compose prefixes one behind the other, and no
timestamp before the last of them is taken off. -/
inductive Prefixed : ℕ → JsString → Prop
  | zero {line : JsString} : Prefixed 0 line
  | succ {n : ℕ} {line name message : JsString}
      (plain : matchTimestamp (cleanLine line) = none)
      (composed : composeLine (cleanLine line) = some (name, message))
      (rest : Prefixed n message) : Prefixed (n + 1) line

/-- The line comes to no impossible date, and has no more compose prefixes than
the stack has room for. -/
structure Parsable (stack : ℕ) (line : JsString) : Prop where
  dated : ¬ OddDate line
  shallow : ¬ Prefixed (stack + 1) line

/-! ## The parser -/

section Lines

variable {line message name : JsString} {front : Option JsString} {stamp : Stamp} {stack : ℕ}

theorem parsable_iff_of_stamp
    (h : matchTimestamp (cleanLine line) = some (front, stamp, message)) :
    Parsable stack line ↔ stamp.time ≠ none := by
  constructor
  · exact fun hline htime => hline.dated (.stamp h htime)
  · intro htime
    refine ⟨fun hodd => ?_, fun hdeep => ?_⟩
    · cases hodd with
      | stamp hfound hnone =>
          rw [h] at hfound
          cases Option.some.inj hfound
          exact htime hnone
      | nested hplain => cases h.symm.trans hplain
    · cases hdeep with
      | succ hplain => cases h.symm.trans hplain

theorem parsable_of_plain (hplain : matchTimestamp (cleanLine line) = none)
    (hcompose : composeLine (cleanLine line) = none) : Parsable stack line := by
  refine ⟨fun hodd => ?_, fun hdeep => ?_⟩
  · cases hodd with
    | stamp hfound => cases hplain.symm.trans hfound
    | nested _ hcomposed => cases hcompose.symm.trans hcomposed
  · cases hdeep with
    | succ _ hcomposed => cases hcompose.symm.trans hcomposed

theorem parsable_succ_iff (hplain : matchTimestamp (cleanLine line) = none)
    (hcomposed : composeLine (cleanLine line) = some (name, message)) :
    Parsable (stack + 1) line ↔ Parsable stack message := by
  constructor
  · exact fun h => ⟨fun hodd => h.dated (.nested hplain hcomposed hodd),
      fun hdeep => h.shallow (.succ hplain hcomposed hdeep)⟩
  · intro h
    refine ⟨fun hodd => ?_, fun hdeep => ?_⟩
    · cases hodd with
      | stamp hfound => cases hplain.symm.trans hfound
      | nested _ hcomposed' hodd =>
          rw [hcomposed] at hcomposed'
          cases Option.some.inj hcomposed'
          exact h.dated hodd
    · cases hdeep with
      | succ _ hcomposed' hdeep =>
          rw [hcomposed] at hcomposed'
          cases Option.some.inj hcomposed'
          exact h.shallow hdeep

end Lines

theorem stampedEntry_ok_iff {front : Option JsString} {stamp : Stamp} {message : JsString}
    {defaultContainerName : Option JsString} :
    (∃ entry, stampedEntry (front, stamp, message) defaultContainerName = .ok entry) ↔
      stamp.time ≠ none := by
  cases htime : stamp.time with
  | none =>
      refine iff_of_false ?_ (by simp)
      rintro ⟨entry, hentry⟩
      simp only [stampedEntry, htime] at hentry
      cases hentry
  | some time =>
      refine iff_of_true ?_ (by simp)
      simp only [stampedEntry, htime]
      exact ⟨_, rfl⟩

/-- A call returns when the call inside it does. -/
theorem parseCall_ok_iff
    {nestedCall : JsString → Option JsString → Except RangeError DockerLogEntry} {stack : ℕ}
    (hnested : ∀ {line name message : JsString}, matchTimestamp (cleanLine line) = none →
      composeLine (cleanLine line) = some (name, message) →
        ((∃ entry, nestedCall message (some name) = .ok entry) ↔ Parsable stack line))
    (line : JsString) (defaultContainerName : Option JsString) :
    (∃ entry, parseCall nestedCall line defaultContainerName = .ok entry) ↔
      Parsable stack line := by
  rw [parseCall]
  cases hmatch : matchTimestamp (cleanLine line) with
  | some found => exact stampedEntry_ok_iff.trans (parsable_iff_of_stamp hmatch).symm
  | none =>
      cases hcompose : composeLine (cleanLine line) with
      | none => exact iff_of_true ⟨_, rfl⟩ (parsable_of_plain hmatch hcompose)
      | some found =>
          rw [← hnested hmatch hcompose]
          cases hcall : nestedCall found.2 (some found.1) with
          | error e => simp [bind, Except.bind, hcall]
          | ok nested => simp [bind, Except.bind, pure, Except.pure, hcall]

/-- The parser returns exactly for the lines it can parse. -/
theorem parseDockerLogLine_ok_iff (stack : ℕ) (line : JsString)
    (defaultContainerName : Option JsString) :
    (∃ entry, parseDockerLogLine stack line defaultContainerName = .ok entry) ↔
      Parsable stack line := by
  induction stack generalizing line defaultContainerName with
  | zero =>
      refine parseCall_ok_iff (fun hplain hcomposed => iff_of_false ?_ fun h => ?_) line _
      · rintro ⟨entry, hentry⟩
        cases hentry
      · exact h.shallow (.succ hplain hcomposed .zero)
  | succ stack ih =>
      refine parseCall_ok_iff (fun hplain hcomposed => ?_) line _
      rw [ih, parsable_succ_iff hplain hcomposed]

/-- Two compose prefixes, where the stack has room for one call more and for two. -/
example : (parseDockerLogLine 1 (js "a | b | ready") none).toBool = false ∧
    (parseDockerLogLine 2 (js "a | b | ready") none).toBool = true := by
  decide +kernel

theorem runtimeLogEntry_ok_iff (stack : ℕ) (line : JsString)
    (defaultContainerName : Option JsString) (stderr : Bool) :
    (∃ entry, runtimeLogEntry stack line defaultContainerName stderr = .ok entry) ↔
      Parsable stack line := by
  rw [← parseDockerLogLine_ok_iff stack line defaultContainerName]
  constructor
  · rintro ⟨entry, hentry⟩
    cases hparsed : parseDockerLogLine stack line defaultContainerName with
    | ok parsed => exact ⟨parsed, rfl⟩
    | error e =>
        simp only [runtimeLogEntry, hparsed] at hentry
        cases hentry
  · rintro ⟨parsed, hparsed⟩
    exact runtimeLogEntry_of_ok stderr hparsed

/-! ## Queries and chunks -/

section Lines

variable {stack : ℕ} {containerName : JsString} {stderr : Bool}

theorem readLines_ok_iff {lines : List JsString} :
    (∃ entries, readLines stack containerName stderr lines = .ok entries) ↔
      ∀ line ∈ lines, Parsable stack line := by
  constructor
  · rintro ⟨entries, hentries⟩ line hline
    cases hread : runtimeLogEntry stack line (some containerName) stderr with
    | ok entry => exact (runtimeLogEntry_ok_iff stack line _ stderr).mp ⟨entry, hread⟩
    | error e =>
        obtain ⟨e', he'⟩ := readLines_of_error hline hread
        cases hentries.symm.trans he'
  · intro h
    exact ⟨_, readLines_of_ok fun line hline => (runtimeLogEntry_ok_iff stack line _ stderr).mpr
      (h line hline)⟩

theorem pushEntries_none_iff {lines : List JsString} :
    (pushEntries stack containerName stderr lines).2 = none ↔
      ∀ line ∈ lines, Parsable stack line := by
  induction lines with
  | nil => simp [pushEntries]
  | cons line lines ih =>
      have hline := runtimeLogEntry_ok_iff stack line (some containerName) stderr
      rw [pushEntries, List.forall_mem_cons, ← ih, ← hline]
      cases hread : runtimeLogEntry stack line (some containerName) stderr with
      | error e => simp
      | ok entry => cases entry <;> simp

end Lines

/-- The lines of one stream that `toEntries` looks at. -/
def streamLines (raw : JsString) : List JsString :=
  (splitUnit 10 raw).filter fun line => trim line ≠ []

/-- The lines of both streams that were read, standard output first. -/
def fetchedLines (result : DockerCliResult) : List JsString :=
  streamLines result.stdout ++ streamLines result.stderr

/-- The entries the lines have when each is read by itself. -/
def fetchedEntries (stack : ℕ) (containerName : JsString) (result : DockerCliResult) :
    List DockerLogEntry :=
  (streamLines result.stdout).filterMap (lineEntry stack containerName false) ++
    (streamLines result.stderr).filterMap (lineEntry stack containerName true)

/-- The query returns, with the entry of every line that has one. -/
def Fetches (stack : ℕ) (docker : List JsString → Exit) (containerName : JsString)
    (args : List JsString) : Prop :=
  ∃ entries, fetchLogEntries stack docker containerName args = .ok entries ∧
    (fetchedEntries stack containerName (runSync docker args) ≠ [] →
      entries.Perm (fetchedEntries stack containerName (runSync docker args)))

/-- The chunk is handled to its end, and every line that has an entry is passed
on. -/
def Pushes (stack : ℕ) (chunk : List Byte) (containerName : JsString) (stderr : Bool) : Prop :=
  pushLines stack chunk containerName stderr =
    ((outputLines (utf8Text chunk)).filterMap (lineEntry stack containerName stderr), none)

section Queries

variable {stack : ℕ} {docker : List JsString → Exit} {containerName : JsString}
  {args : List JsString}

/-- A query that returns has read every line. -/
theorem parsable_of_fetched {entries : List DockerLogEntry}
    (h : fetchLogEntries stack docker containerName args = .ok entries) :
    ∀ line ∈ fetchedLines (runSync docker args), Parsable stack line := by
  rw [fetchedLines, List.forall_mem_append]
  unfold fetchLogEntries at h
  cases hout : toEntries stack containerName (runSync docker args).stdout false with
  | error e =>
      simp only [hout] at h
      cases h
  | ok out =>
      cases herr : toEntries stack containerName (runSync docker args).stderr true with
      | error e =>
          simp only [hout, herr] at h
          cases h
      | ok err => exact ⟨readLines_ok_iff.mp ⟨out, hout⟩, readLines_ok_iff.mp ⟨err, herr⟩⟩

variable (stack docker containerName args) in
theorem fetches_iff :
    Fetches stack docker containerName args ↔
      ∀ line ∈ fetchedLines (runSync docker args), Parsable stack line := by
  constructor
  · rintro ⟨entries, hentries, -⟩
    exact parsable_of_fetched hentries
  · intro h
    obtain ⟨hout, herr⟩ := List.forall_mem_append.mp h
    have hreadable : ∀ (stderr : Bool) {lines : List JsString},
        (∀ line ∈ lines, Parsable stack line) → ∀ line ∈ lines, ∃ entry,
          runtimeLogEntry stack line (some containerName) stderr = .ok entry :=
      fun stderr _ h line hline => (runtimeLogEntry_ok_iff stack line _ stderr).mpr (h line hline)
    have hfront := readLines_of_ok (hreadable false hout)
    have hback := readLines_of_ok (hreadable true herr)
    unfold Fetches fetchLogEntries fetchedEntries
    simp only [toEntries, streamLines] at hfront hback ⊢
    rw [hfront, hback]
    by_cases hfailed : (runSync docker args).status ≠ some 0 ∧
        (streamLines (runSync docker args).stdout).filterMap
          (lineEntry stack containerName false) = [] ∧
        (streamLines (runSync docker args).stderr).filterMap
          (lineEntry stack containerName true) = []
    · refine ⟨_, if_pos hfailed, fun hsome => ?_⟩
      exact absurd (List.append_eq_nil_iff.mpr ⟨hfailed.2.1, hfailed.2.2⟩) hsome
    · exact ⟨_, if_neg hfailed, fun _ => sortLogEntries_perm _⟩

theorem pushes_iff (stack : ℕ) (chunk : List Byte) (containerName : JsString) (stderr : Bool) :
    Pushes stack chunk containerName stderr ↔
      ∀ line ∈ outputLines (utf8Text chunk), Parsable stack line := by
  constructor
  · intro h
    exact pushEntries_none_iff.mp (congrArg Prod.snd h)
  · intro h
    exact pushEntries_of_readable stderr fun line hline =>
      (parseDockerLogLine_ok_iff stack line _).mpr (h line hline)

end Queries

end OpticsAgent.Docker
