import Mathlib
import OpticsAgent.Docker.LogParser

/-!
The two consumers of `outputLines`: `emitOutputLines`, with which `DockerCli.run`
passes lines on, and `pushLines` of the live log. Each `data` event is handled on
its own, so a line that two chunks share is shown in two parts.
-/

namespace OpticsAgent.Docker

open OpticsAgent.Ecma OpticsAgent.Node OpticsAgent.Lib

/-- The lines one chunk passes to `sendLog`. -/
def emitOutputLines (chunk : List Byte) : List JsString := outputLines (utf8Text chunk)

/-- The `forEach` of `pushLines`: what `onLog` receives, and the error that ends
the loop. -/
def pushEntries (stack : ℕ) (containerName : JsString) (stderr : Bool) :
    List JsString → List DockerLogEntry × Option RangeError
  | [] => ([], none)
  | line :: lines =>
      match runtimeLogEntry stack line (some containerName) stderr with
      | .error e => ([], some e)
      | .ok none => pushEntries stack containerName stderr lines
      | .ok (some entry) =>
          let (entries, failure) := pushEntries stack containerName stderr lines
          (entry :: entries, failure)

def pushLines (stack : ℕ) (chunk : List Byte) (containerName : JsString) (stderr : Bool) :
    List DockerLogEntry × Option RangeError :=
  pushEntries stack containerName stderr (outputLines (utf8Text chunk))

/-- The process guard logs an error of a `data` event, and the next event is
handled as if nothing had happened. -/
def liveEntries (stack : ℕ) (chunks : List (List Byte)) (containerName : JsString)
    (stderr : Bool) : List DockerLogEntry :=
  chunks.flatMap fun chunk => (pushLines stack chunk containerName stderr).1

/-- The entry of a line; a line without a message has none. -/
def lineEntry (stack : ℕ) (containerName : JsString) (stderr : Bool) (line : JsString) :
    Option DockerLogEntry :=
  match runtimeLogEntry stack line (some containerName) stderr with
  | .ok entry => entry
  | .error _ => none

/-- The lines and the entries of the chunks are those of the whole output, every
line of it once. -/
structure LinesOfWhole (stack : ℕ) (chunks : List (List Byte)) (containerName : JsString)
    (stderr : Bool) : Prop where
  lines : chunks.flatMap emitOutputLines = emitOutputLines chunks.flatten
  read : ∀ line ∈ emitOutputLines chunks.flatten,
    ∃ entry, runtimeLogEntry stack line (some containerName) stderr = .ok entry
  same : liveEntries stack chunks containerName stderr =
    liveEntries stack [chunks.flatten] containerName stderr
  entries : liveEntries stack chunks containerName stderr =
    (emitOutputLines chunks.flatten).filterMap (lineEntry stack containerName stderr)

/-- The parser returns an entry for the line. -/
def Readable (stack : ℕ) (containerName line : JsString) : Prop :=
  ∃ entry, parseDockerLogLine stack line (some containerName) = .ok entry

instance (stack : ℕ) (containerName line : JsString) :
    Decidable (Readable stack containerName line) :=
  match h : parseDockerLogLine stack line (some containerName) with
  | .ok entry => isTrue ⟨entry, h⟩
  | .error e => isFalse fun ⟨_, hentry⟩ => by rw [h] at hentry; cases hentry

section Entries

variable {stack : ℕ} {containerName : JsString} (stderr : Bool)

theorem runtimeLogEntry_of_ok {line : JsString} {parsed : DockerLogEntry}
    {defaultContainerName : Option JsString}
    (h : parseDockerLogLine stack line defaultContainerName = .ok parsed) :
    ∃ entry, runtimeLogEntry stack line defaultContainerName stderr = .ok entry := by
  unfold runtimeLogEntry
  simp only [h]
  change ∃ entry, (if trim parsed.line = [] then _ else _) = _
  by_cases hblank : trim parsed.line = []
  · exact ⟨none, if_pos hblank⟩
  · exact ⟨_, if_neg hblank⟩

theorem readable_iff {line : JsString} :
    Readable stack containerName line ↔
      ∃ entry, runtimeLogEntry stack line (some containerName) stderr = .ok entry := by
  constructor
  · rintro ⟨parsed, hparsed⟩
    exact runtimeLogEntry_of_ok stderr hparsed
  · rintro ⟨entry, hentry⟩
    cases hparsed : parseDockerLogLine stack line (some containerName) with
    | ok parsed => exact ⟨parsed, hparsed⟩
    | error e =>
        simp only [runtimeLogEntry, hparsed] at hentry
        cases hentry

theorem pushEntries_of_readable {lines : List JsString}
    (h : ∀ line ∈ lines, Readable stack containerName line) :
    pushEntries stack containerName stderr lines =
      (lines.filterMap (lineEntry stack containerName stderr), none) := by
  induction lines with
  | nil => rfl
  | cons line lines ih =>
      obtain ⟨hline, hlines⟩ := List.forall_mem_cons.mp h
      obtain ⟨entry, hentry⟩ := (readable_iff stderr).mp hline
      have hshown : lineEntry stack containerName stderr line = entry := by rw [lineEntry, hentry]
      rw [pushEntries, hentry, ih hlines, List.filterMap_cons, hshown]
      cases entry <;> rfl

theorem liveEntries_of_readable (chunks : List (List Byte))
    (h : ∀ line ∈ chunks.flatMap emitOutputLines, Readable stack containerName line) :
    liveEntries stack chunks containerName stderr =
      (chunks.flatMap emitOutputLines).filterMap (lineEntry stack containerName stderr) := by
  induction chunks with
  | nil => rfl
  | cons chunk after ih =>
      rw [List.flatMap_cons, List.forall_mem_append] at h
      have hchunk := pushEntries_of_readable stderr h.1
      rw [liveEntries, List.flatMap_cons, List.flatMap_cons, List.filterMap_append]
      exact congrArg₂ (· ++ ·) (congrArg Prod.fst hchunk) (ih h.2)

end Entries

theorem emitOutputLines_eq (chunk : List Byte) :
    emitOutputLines chunk = emitted isBreakByte shownLine chunk := outputLines_utf8Text chunk

/-- Chunks show what the whole output shows exactly when they keep its lines
whole, and all of it is delivered when the parser returns for every line. -/
theorem lines_of_whole_iff (stack : ℕ) (chunks : List (List Byte)) (containerName : JsString)
    (stderr : Bool) :
    LinesOfWhole stack chunks containerName stderr ↔
      WholeLines isBreakByte shownLine chunks ∧
        ∀ line ∈ emitOutputLines chunks.flatten, Readable stack containerName line := by
  have hlines : chunks.flatMap emitOutputLines = emitOutputLines chunks.flatten ↔
      WholeLines isBreakByte shownLine chunks := by
    rw [← emitted_chunks_iff isBreakByte shows_shownLine, emitOutputLines_eq]
    exact Eq.congr_left (List.flatMap_congr fun chunk _ => emitOutputLines_eq chunk)
  constructor
  · intro h
    exact ⟨hlines.mp h.lines, fun line hline => (readable_iff stderr).mpr (h.read line hline)⟩
  · rintro ⟨hwhole, hread⟩
    have hsame := hlines.mpr hwhole
    have hentries := liveEntries_of_readable stderr chunks (hsame ▸ hread)
    have hone := liveEntries_of_readable stderr [chunks.flatten] (by simpa using hread)
    rw [List.flatMap_singleton] at hone
    rw [hsame] at hentries
    exact ⟨hsame, fun line hline => (readable_iff stderr).mp (hread line hline),
      hentries.trans hone.symm, hentries⟩

/-- One line in two chunks becomes two lines. -/
theorem lines_of_whole_fails :
    ¬ LinesOfWhole 1000 [utf8Bytes (js "pul"), utf8Bytes (js "ling\n")] (js "web") false := by
  intro h
  have hlines := h.lines
  revert hlines
  decide +kernel

end OpticsAgent.Docker
