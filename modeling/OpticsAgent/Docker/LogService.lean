import Mathlib
import OpticsAgent.Docker.DeployCommand
import OpticsAgent.Docker.LogLines
import OpticsAgent.Ecma.Split

/-!
Queries of `DockerLogService`. The docker CLI is a parameter: it is given the
arguments and leaves an exit code and the bytes of its two output streams.
`spawnSync` is called without a `maxBuffer`, so a command that writes more than
the default is killed, and what was read of it until then is taken for its output.
-/

namespace OpticsAgent.Docker

open OpticsAgent.Ecma OpticsAgent.Node OpticsAgent.Lib

/-- The default `maxBuffer` of `spawnSync`, for the bytes of both streams together. -/
def maxBuffer : ℕ := 1024 * 1024

/-- What `spawnSync` has of a command when it gives up on it: how much it has read
of the two streams, and the status, where there is one already. -/
structure Overrun where
  status : Option ℕ := none
  stdout : ℕ := 0
  stderr : ℕ := 0

/-- What a docker command leaves when it is left to its end, and where
`spawnSync` gives up on it when it writes too much. -/
structure Exit where
  status : Option ℕ
  stdout : List Byte
  stderr : List Byte
  overrun : Overrun := {}

def Exit.Fits (exit : Exit) : Prop := exit.stdout.length + exit.stderr.length ≤ maxBuffer

instance (exit : Exit) : Decidable exit.Fits := inferInstanceAs (Decidable (_ ≤ _))

structure DockerCliResult where
  status : Option ℕ
  stdout : JsString
  stderr : JsString

/-- `String(n)`. -/
def countText (n : ℕ) : JsString := (naturalDigits n).map digitUnit

def logArgs (containerName : JsString) (isCompose : Bool) (tail : JsString)
    (until? : Option JsString) : List JsString :=
  let untilArgs := match until? with
    | some time => [js "--until", time]
    | none => []
  if isCompose then
    [js "compose", js "-p", containerName, js "logs", js "--tail", tail, js "--timestamps"] ++
      untilArgs
  else [js "logs", js "--timestamps", js "--tail", tail] ++ untilArgs ++ [containerName]

section Reading

variable (stack : ℕ)

/-- The `flatMap` of `toEntries`: the first error ends it. -/
def readLines (containerName : JsString) (stderr : Bool) :
    List JsString → Except RangeError (List DockerLogEntry)
  | [] => return []
  | line :: lines => do
      let entry ← runtimeLogEntry stack line (some containerName) stderr
      return entry.toList ++ (← readLines containerName stderr lines)

/-- The entries of one stream of a finished command. -/
def toEntries (containerName : JsString) (raw : JsString) (stderr : Bool) :
    Except RangeError (List DockerLogEntry) :=
  readLines stack containerName stderr ((splitUnit 10 raw).filter fun line => trim line ≠ [])

end Reading

/-- `Number.MAX_SAFE_INTEGER` stands for no time. -/
def logEntryTime (entry : DockerLogEntry) : ℤ :=
  match entry.timestamp with
  | none => 9007199254740991
  | some text => (dateParse text).getD 9007199254740991

/-- A stable sort by time. -/
def sortLogEntries (entries : List DockerLogEntry) : List DockerLogEntry :=
  entries.mergeSort fun a b => logEntryTime a ≤ logEntryTime b

def runSync (docker : List JsString → Exit) (args : List JsString) : DockerCliResult :=
  let exit := docker args
  if exit.Fits then
    { status := exit.status, stdout := utf8Text exit.stdout, stderr := utf8Text exit.stderr }
  else
    { status := exit.overrun.status
      stdout := utf8Text (exit.stdout.take exit.overrun.stdout)
      stderr := utf8Text (exit.stderr.take exit.overrun.stderr) }

theorem runSync_of_fits {docker : List JsString → Exit} {args : List JsString}
    (h : (docker args).Fits) :
    runSync docker args = ⟨(docker args).status, utf8Text (docker args).stdout,
      utf8Text (docker args).stderr⟩ :=
  if_pos h

section Queries

variable (stack : ℕ) (docker : List JsString → Exit)

def fetchLogEntries (containerName : JsString) (args : List JsString) :
    Except RangeError (List DockerLogEntry) := do
  let result := runSync docker args
  let stdout ← toEntries stack containerName result.stdout false
  let stderr ← toEntries stack containerName result.stderr true
  if result.status ≠ some 0 ∧ stdout = [] ∧ stderr = [] then
    let code := (result.status.map countText).getD (js "unknown")
    return [{ line := js "ERROR: docker logs exited with code " ++ code }]
  else return sortLogEntries (stdout ++ stderr)

/-- `new Date(new Date(before).getTime() - 1).toISOString()`. The engine's
`new Date` is `newDate`, as it reads texts that are not in the ISO format too. -/
def untilOf (newDate : JsString → Option ℤ) (before : JsString) : Except RangeError JsString :=
  toISOString? ((newDate before).bind fun time =>
    if inTimeRange (time - 1) then some (time - 1) else none)

def loadOlderContainerLogs (newDate : JsString → Option ℤ) (casing : CaseMapping)
    (containerName deployPreset before : JsString) (limit : ℕ) :
    Except RangeError (List DockerLogEntry) := do
  let time ← untilOf newDate before
  let safeLimit := max 1 (min limit 5000)
  fetchLogEntries stack docker containerName
    (logArgs containerName (isComposePreset casing deployPreset) (countText safeLimit) (some time))

end Queries

def ofStream (stderr : Bool) (lines : List LogLine) : List LogLine :=
  lines.filter fun line => line.stderr == stderr

/-- The output of `docker logs` with these lines. -/
def printedLines (label : Option ComposeLabel) (lines : List LogLine) : Exit where
  status := some 0
  stdout := (ofStream false lines).flatMap fun line => line.printed label ++ [10]
  stderr := (ofStream true lines).flatMap fun line => line.printed label ++ [10]

/-- The output is that of `docker logs` with these lines. -/
structure Exit.Prints (exit : Exit) (label : Option ComposeLabel) (lines : List LogLine) :
    Prop where
  status : exit.status = some 0
  stdout : exit.stdout = (printedLines label lines).stdout
  stderr : exit.stderr = (printedLines label lines).stderr

theorem prints_printedLines (label : Option ComposeLabel) (lines : List LogLine) :
    (printedLines label lines).Prints label lines := ⟨rfl, rfl, rfl⟩

/-! ## Reading docker's output -/

theorem utf8Text_lines (texts : List (List Byte)) :
    utf8Text (texts.flatMap fun text => text ++ [10]) =
      (texts.map utf8Text).flatMap fun text => text ++ [10] := by
  induction texts with
  | nil => rfl
  | cons text texts ih =>
      rw [List.flatMap_cons, List.map_cons, List.flatMap_cons, List.append_assoc,
        List.singleton_append, utf8Text_ascii text (by decide), ih]
      simp

theorem splitUnit_lines {texts : List JsString} (h : ∀ text ∈ texts, ∀ c ∈ text, c ≠ 10) :
    splitUnit 10 (texts.flatMap fun text => text ++ [10]) = texts ++ [[]] := by
  induction texts with
  | nil => rfl
  | cons text texts ih =>
      obtain ⟨htext, htexts⟩ := List.forall_mem_cons.mp h
      have hline : splitUnit 10 text = [text] :=
        splitUnit_of_not_mem fun hmem => htext 10 hmem rfl
      rw [List.flatMap_cons, List.append_assoc, List.singleton_append, splitUnit_append, hline,
        ih htexts]
      rfl

section Fetch

variable {stack : ℕ} {containerName : JsString} {stderr : Bool}

theorem readLines_of_ok {lines : List JsString}
    (h : ∀ line ∈ lines, ∃ entry,
      runtimeLogEntry stack line (some containerName) stderr = .ok entry) :
    readLines stack containerName stderr lines =
      .ok (lines.filterMap (lineEntry stack containerName stderr)) := by
  induction lines with
  | nil => rfl
  | cons line lines ih =>
      obtain ⟨⟨entry, hentry⟩, hlines⟩ := List.forall_mem_cons.mp h
      have hshown : lineEntry stack containerName stderr line = entry := by rw [lineEntry, hentry]
      rw [readLines, hentry, ih hlines, List.filterMap_cons, hshown]
      cases entry <;> rfl

theorem readLines_of_error {lines : List JsString} {line : JsString} (hline : line ∈ lines)
    {e : RangeError} (h : runtimeLogEntry stack line (some containerName) stderr = .error e) :
    ∃ e, readLines stack containerName stderr lines = .error e := by
  induction lines with
  | nil => cases hline
  | cons first lines ih =>
      rw [readLines]
      cases hfirst : runtimeLogEntry stack first (some containerName) stderr with
      | error e => exact ⟨e, rfl⟩
      | ok entry =>
          have hrest : line ∈ lines := by
            rcases List.mem_cons.mp hline with rfl | hrest
            · rw [h] at hfirst
              cases hfirst
            · exact hrest
          obtain ⟨e, he⟩ := ih hrest
          exact ⟨e, by rw [he]; rfl⟩

/-- The lines `toEntries` finds in one stream are the lines docker printed. -/
theorem toEntries_printed (label : Option ComposeLabel) (lines : List LogLine) :
    toEntries stack containerName
        (utf8Text (lines.flatMap fun line => line.printed label ++ [10])) stderr =
      readLines stack containerName stderr
        (lines.map fun line => utf8Text (line.printed label)) := by
  have htexts : utf8Text (lines.flatMap fun line => line.printed label ++ [10]) =
      (lines.map fun line => utf8Text (line.printed label)).flatMap fun text => text ++ [10] := by
    have hbytes := utf8Text_lines (lines.map fun line => line.printed label)
    rwa [List.flatMap_map, List.map_map] at hbytes
  have hclean : ∀ text ∈ lines.map fun line => utf8Text (line.printed label),
      ∀ c ∈ text, c ≠ 10 := by
    intro text htext
    obtain ⟨line, -, rfl⟩ := List.mem_map.mp htext
    exact line.printed_clean label
  have hkept : ∀ text ∈ lines.map fun line => utf8Text (line.printed label),
      decide (trim text ≠ []) = true := by
    intro text htext
    obtain ⟨line, -, rfl⟩ := List.mem_map.mp htext
    exact decide_eq_true (line.trim_printed_ne_nil label)
  rw [toEntries, htexts, splitUnit_lines hclean, List.filter_append,
    List.filter_eq_self.mpr hkept]
  simp [trim]

theorem sortLogEntries_perm (entries : List DockerLogEntry) :
    (sortLogEntries entries).Perm entries := List.mergeSort_perm _ _

variable {docker : List JsString → Exit} {args : List JsString} {label : Option ComposeLabel}
  {lines : List LogLine}

/-- The entries of one stream, where all of its lines can be read. -/
theorem readLines_ofStream (stderr : Bool)
    (h : ∀ line ∈ lines, ∃ entry, line.reading stack containerName label = .ok entry) :
    readLines stack containerName stderr
        ((ofStream stderr lines).map fun line => utf8Text (line.printed label)) =
      .ok ((ofStream stderr lines).filterMap (LogLine.entry stack containerName label)) := by
  have hstream : ∀ line ∈ ofStream stderr lines, line ∈ lines ∧ line.stderr = stderr := by
    intro line hline
    obtain ⟨hmem, heq⟩ := List.mem_filter.mp hline
    exact ⟨hmem, beq_iff_eq.mp heq⟩
  rw [readLines_of_ok, List.filterMap_map]
  · congr 1
    refine List.filterMap_congr fun line hline => ?_
    simp [LogLine.entry, (hstream line hline).2]
  · intro text htext
    obtain ⟨line, hline, rfl⟩ := List.mem_map.mp htext
    obtain ⟨hmem, rfl⟩ := hstream line hline
    exact h line hmem

theorem entries_perm (read : LogLine → Option DockerLogEntry) (lines : List LogLine) :
    ((ofStream false lines).filterMap read ++ (ofStream true lines).filterMap read).Perm
      (lines.filterMap read) := by
  rw [← List.filterMap_append]
  refine List.Perm.filterMap read ?_
  have hsplit := List.filter_append_perm (fun line : LogLine => line.stderr == false) lines
  have hother : ofStream true lines = lines.filter fun line => !(line.stderr == false) :=
    List.filter_congr fun line _ => by cases line.stderr <;> rfl
  rw [hother]
  exact hsplit

theorem runSync_of_prints (hdocker : (docker args).Prints label lines)
    (hfits : (printedLines label lines).Fits) :
    runSync docker args = ⟨some 0, utf8Text (printedLines label lines).stdout,
      utf8Text (printedLines label lines).stderr⟩ := by
  have hsame : (docker args).Fits := by
    rwa [Exit.Fits, hdocker.stdout, hdocker.stderr]
  rw [runSync_of_fits hsame, hdocker.status, hdocker.stdout, hdocker.stderr]

/-- A query whose lines can be read gives their entries. -/
theorem fetchLogEntries_of_ok (hdocker : (docker args).Prints label lines)
    (hfits : (printedLines label lines).Fits)
    (h : ∀ line ∈ lines, ∃ entry, line.reading stack containerName label = .ok entry) :
    ∃ entries, fetchLogEntries stack docker containerName args = .ok entries ∧
      entries.Perm (lines.filterMap (LogLine.entry stack containerName label)) := by
  have hout := readLines_ofStream false h
  have herr := readLines_ofStream true h
  refine ⟨sortLogEntries _, ?_, (sortLogEntries_perm _).trans (entries_perm _ _)⟩
  unfold fetchLogEntries
  simp only [runSync_of_prints hdocker hfits, printedLines, toEntries_printed, hout, herr]
  rfl

/-- A line that cannot be read fails the whole query. -/
theorem fetchLogEntries_of_error (hdocker : (docker args).Prints label lines)
    (hfits : (printedLines label lines).Fits) {line : LogLine} (hline : line ∈ lines)
    {e : RangeError} (h : line.reading stack containerName label = .error e) :
    ∃ e, fetchLogEntries stack docker containerName args = .error e := by
  have hmem : utf8Text (line.printed label) ∈
      (ofStream line.stderr lines).map fun line => utf8Text (line.printed label) :=
    List.mem_map.mpr ⟨line, List.mem_filter.mpr ⟨hline, beq_self_eq_true _⟩, rfl⟩
  obtain ⟨e, he⟩ := readLines_of_error hmem h
  unfold fetchLogEntries
  simp only [runSync_of_prints hdocker hfits, printedLines, toEntries_printed]
  cases hstream : line.stderr with
  | false =>
      rw [hstream] at he
      exact ⟨e, by rw [he]; rfl⟩
  | true =>
      rw [hstream] at he
      rw [he]
      cases readLines stack containerName false _ with
      | error e' => exact ⟨e', rfl⟩
      | ok entries => exact ⟨e, rfl⟩

end Fetch

/-! Two texts of one line, for trials. -/

theorem oneLine_of_all {text : List Byte} (h : text.all (fun b => !isNewline b) = true) :
    ∀ b ∈ text, isNewline b = false := by
  intro b hb
  simpa using List.all_eq_true.mp h b hb

theorem starting_oneLine : (utf8Bytes (js "starting")).all (fun b => !isNewline b) = true := by
  decide +kernel

theorem ready_oneLine : (utf8Bytes (js "ready")).all (fun b => !isNewline b) = true := by
  decide +kernel

end OpticsAgent.Docker
