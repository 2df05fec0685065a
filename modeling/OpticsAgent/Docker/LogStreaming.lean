import Mathlib
import OpticsAgent.Docker.LogService
import OpticsAgent.Lib.Machine

/-!
`streamContainerLog` against a container that goes on writing. The history query,
the batches and the docker process that follows the log are steps of their own, so
lines may be written between any two of them. The following process prints the
lines written after it attached, and the agent reads what it printed in chunks.
-/

namespace OpticsAgent.Docker

open OpticsAgent.Ecma OpticsAgent.Node OpticsAgent.Lib

/-- Where the stream stands, with the length the log had at the history query and
when the following process attached. -/
inductive Phase where
  | idle
  /-- The history query threw, so nothing is sent and no process is started. -/
  | rejected (asked : ℕ)
  | sending (asked : ℕ)
  | following (asked attached : ℕ)
  deriving DecidableEq

structure StreamState where
  log : List LogLine := []
  phase : Phase := .idle
  /-- The entries of the history that are still to be sent. -/
  batches : List DockerLogEntry := []
  /-- The entries given to `onHistory`. -/
  history : List DockerLogEntry := []
  /-- How many lines of the log the following process is past. -/
  printed : ℕ := 0
  /-- What it has printed on its two streams and the agent has not read yet. -/
  pipe : Bool → List Byte := fun _ => []
  /-- The entries given to `onLog`, for each stream. -/
  live : Bool → List DockerLogEntry := fun _ => []

inductive StreamEvent where
  | write (line : LogLine)
  | query
  | batch
  | attach
  | print
  | data (stderr : Bool) (size : ℕ)

def historyBatchSize : ℕ := 2000

def historyTail : ℕ := 10000

section Service

variable (stack : ℕ) (docker : List LogLine → List JsString → Exit)
  (containerName : JsString) (isCompose : Bool) (label : Option ComposeLabel)

namespace StreamState

/-- `fetchLogEntries` of the history, against the log as it is. -/
def query (s : StreamState) : StreamState :=
  match fetchLogEntries stack (docker s.log) containerName
      (logArgs containerName isCompose (countText historyTail) none) with
  | .ok entries => { s with phase := .sending s.log.length, batches := entries }
  | .error _ => { s with phase := .rejected s.log.length }

/-- The following process prints a line, with a line end. -/
def print (s : StreamState) (line : LogLine) : StreamState :=
  { s with
    printed := s.printed + 1
    pipe := Function.update s.pipe line.stderr
      (s.pipe line.stderr ++ (line.printed label ++ [10])) }

theorem print_pipe (s : StreamState) (line : LogLine) (stderr : Bool) :
    (s.print label line).pipe stderr =
      if stderr = line.stderr then s.pipe stderr ++ (line.printed label ++ [10])
      else s.pipe stderr := by
  simp only [print, Function.update_apply]
  split_ifs with h
  · rw [h]
  · rfl

/-- A `data` event with the next `size` bytes of a stream. -/
def data (s : StreamState) (stderr : Bool) (size : ℕ) : StreamState :=
  { s with
    pipe := Function.update s.pipe stderr ((s.pipe stderr).drop size)
    live := Function.update s.live stderr
      (s.live stderr ++ (pushLines stack ((s.pipe stderr).take size) containerName stderr).1) }

theorem data_pipe (s : StreamState) (stderr : Bool) (size : ℕ) (stream : Bool) :
    (s.data stack containerName stderr size).pipe stream =
      if stream = stderr then (s.pipe stream).drop size else s.pipe stream := by
  simp only [data, Function.update_apply]
  split_ifs with h
  · rw [h]
  · rfl

theorem data_live (s : StreamState) (stderr : Bool) (size : ℕ) (stream : Bool) :
    (s.data stack containerName stderr size).live stream =
      if stream = stderr then
        s.live stream ++ (pushLines stack ((s.pipe stream).take size) containerName stream).1
      else s.live stream := by
  simp only [data, Function.update_apply]
  split_ifs with h
  · rw [h]
  · rfl

end StreamState

/-- `streamContainerLog`, the container and the following process. -/
def logStream : Machine StreamState StreamEvent where
  step s
    | .write line => some { s with log := s.log ++ [line] }
    | .query =>
        if s.phase = .idle then some (s.query stack docker containerName isCompose) else none
    | .batch =>
        if s.batches = [] then none
        else some { s with
          history := s.history ++ s.batches.take historyBatchSize
          batches := s.batches.drop historyBatchSize }
    | .attach =>
        match s.phase with
        | .sending asked =>
            if s.batches = [] then
              some { s with phase := .following asked s.log.length, printed := s.log.length }
            else none
        | _ => none
    | .print =>
        match s.phase, s.log[s.printed]? with
        | .following _ _, some line => some (s.print label line)
        | _, _ => none
    | .data stderr size =>
        if 0 < size ∧ size ≤ (s.pipe stderr).length then
          some (s.data stack containerName stderr size)
        else none

def StreamState.SettledIn (s : StreamState) : Phase → Prop
  | .idle => False
  | .rejected _ => True
  | .sending _ => False
  | .following _ _ => s.printed = s.log.length ∧ ∀ stderr, s.pipe stderr = []

instance (s : StreamState) : DecidablePred s.SettledIn
  | .idle => inferInstanceAs (Decidable False)
  | .rejected _ => inferInstanceAs (Decidable True)
  | .sending _ => inferInstanceAs (Decidable False)
  | .following _ _ => inferInstanceAs (Decidable (_ ∧ _))

/-- Nothing that was written is still on its way. -/
def StreamState.Settled (s : StreamState) : Prop := s.SettledIn s.phase

instance : DecidablePred StreamState.Settled :=
  fun s => inferInstanceAs (Decidable (s.SettledIn s.phase))

def Phase.asked : Phase → ℕ
  | .idle => 0
  | .rejected asked => asked
  | .sending asked => asked
  | .following asked _ => asked

/-- Each non-blank line from the oldest line of the history on has its entry
delivered once. -/
def StreamState.DeliveredOnce (s : StreamState) : Prop :=
  ((s.history ++ (s.live false ++ s.live true)).map some).Perm
    (((s.log.drop (s.phase.asked - historyTail)).filter fun line => !line.isBlank).map
      (LogLine.entry stack containerName label))

instance : DecidablePred (StreamState.DeliveredOnce stack containerName label) :=
  fun _ => inferInstanceAs (Decidable (List.Perm _ _))

/-- The history reads the line, and has an entry for it unless it is blank. -/
def LogLine.IsRead (line : LogLine) : Prop :=
  (line.reading stack containerName label).toBool = true ∧
    (line.isBlank = false → (line.entry stack containerName label).isSome)

instance (line : LogLine) : Decidable (line.IsRead stack containerName label) :=
  inferInstanceAs (Decidable (_ ∧ _))

/-- The live log reads the line, and as the history does. -/
def LogLine.IsReadLive (line : LogLine) : Prop :=
  (∀ shown ∈ emitOutputLines (line.printed label), Readable stack containerName shown) ∧
    (emitOutputLines (line.printed label)).filterMap (lineEntry stack containerName line.stderr) =
      (line.entry stack containerName label).toList ∧
    (line.isBlank = false → (line.entry stack containerName label).isSome)

instance (line : LogLine) : Decidable (line.IsReadLive stack containerName label) :=
  inferInstanceAs (Decidable (_ ∧ _ ∧ _))

/-- Between the history query and the attach only blank lines are written, and
behind the attach lines the live log can read. -/
def MayWrite (line : LogLine) : Phase → Prop
  | .idle => True
  | .rejected _ => True
  | .sending _ => line.isBlank = true
  | .following _ _ => line.IsReadLive stack containerName label

instance (line : LogLine) : DecidablePred (MayWrite stack containerName label line)
  | .idle => inferInstanceAs (Decidable True)
  | .rejected _ => inferInstanceAs (Decidable True)
  | .sending _ => inferInstanceAs (Decidable (_ = _))
  | .following _ _ => inferInstanceAs (Decidable (line.IsReadLive stack containerName label))

/-- Lines are written where they can be delivered, `spawnSync` takes the whole
history, it can be read, and chunks keep lines whole. -/
def KeepsUp (s : StreamState) : StreamEvent → Prop
  | .write line => MayWrite stack containerName label line s.phase
  | .query => (printedLines label (s.log.rtake historyTail)).Fits ∧
      ∀ line ∈ s.log.rtake historyTail, line.IsRead stack containerName label
  | .data stderr size =>
      shownLine (openLine isBreakByte ((s.pipe stderr).take size)) = [] ∨
        shownLine (firstLine isBreakByte ((s.pipe stderr).drop size)) = []
  | .batch => True
  | .attach => True
  | .print => True

instance (s : StreamState) : DecidablePred (KeepsUp stack containerName label s)
  | .write line => inferInstanceAs (Decidable (MayWrite stack containerName label line s.phase))
  | .query => inferInstanceAs (Decidable (_ ∧ ∀ line ∈ s.log.rtake historyTail, _))
  | .data _ _ => inferInstanceAs (Decidable (_ ∨ _))
  | .batch => inferInstanceAs (Decidable True)
  | .attach => inferInstanceAs (Decidable True)
  | .print => inferInstanceAs (Decidable True)

/-! ## What holds along a stream -/

/-- The history holds the entries of the last lines before the query. -/
structure StreamState.Sent (asked : ℕ) (s : StreamState) : Prop where
  le : asked ≤ s.log.length
  entries : (s.history ++ s.batches).Perm
    (((s.log.take asked).drop (asked - historyTail)).filterMap
      (LogLine.entry stack containerName label))
  read : ∀ line ∈ (s.log.take asked).drop (asked - historyTail), line.isBlank = false →
    (line.entry stack containerName label).isSome

/-- The following process has printed the lines since the attach, and what was
delivered and what is on its way are their entries. -/
structure StreamState.Follows (asked attached : ℕ) (s : StreamState) : Prop where
  asked_le : asked ≤ attached
  attached_le : attached ≤ s.printed
  printed_le : s.printed ≤ s.log.length
  blank : ∀ line ∈ (s.log.take attached).drop asked, line.isBlank = true
  read : ∀ line ∈ s.log.drop attached, line.IsReadLive stack containerName label
  entries : ∀ stderr, s.live stderr ++
      (emitOutputLines (s.pipe stderr)).filterMap (lineEntry stack containerName stderr) =
    (ofStream stderr ((s.log.take s.printed).drop attached)).filterMap
      (LogLine.entry stack containerName label)
  whole : ∀ stderr, openLine isBreakByte (s.pipe stderr) = []
  readable : ∀ stderr, ∀ shown ∈ emitOutputLines (s.pipe stderr),
    Readable stack containerName shown

/-- No following process has printed anything yet. -/
def StreamState.Quiet (s : StreamState) : Prop :=
  ∀ stderr, s.pipe stderr = [] ∧ s.live stderr = []

def StreamState.SoundIn (s : StreamState) : Phase → Prop
  | .idle => s.history = [] ∧ s.batches = [] ∧ s.Quiet
  | .rejected _ => False
  | .sending asked => s.Sent stack containerName label asked ∧ s.Quiet ∧
      ∀ line ∈ s.log.drop asked, line.isBlank = true
  | .following asked attached => s.Sent stack containerName label asked ∧ s.batches = [] ∧
      s.Follows stack containerName label asked attached

def StreamState.Sound (s : StreamState) : Prop := s.SoundIn stack containerName label s.phase

end Service

section Steps

variable {stack : ℕ} {docker : List LogLine → List JsString → Exit} {containerName : JsString}
  {isCompose : Bool} {label : Option ComposeLabel} {s : StreamState}

theorem StreamState.Sent.write {asked : ℕ} (h : s.Sent stack containerName label asked)
    (line : LogLine) : StreamState.Sent stack containerName label asked
      { s with log := s.log ++ [line] } := by
  have htake : (s.log ++ [line]).take asked = s.log.take asked :=
    List.take_append_of_le_length h.le
  refine ⟨h.le.trans (by simp), ?_, ?_⟩
  · simpa only [htake] using h.entries
  · simpa only [htake] using h.read

theorem forall_mem_drop_write {P : LogLine → Prop} {log : List LogLine} {n : ℕ} {new : LogLine}
    (hn : n ≤ log.length) (h : ∀ line ∈ log.drop n, P line) (hnew : P new) :
    ∀ line ∈ (log ++ [new]).drop n, P line := by
  rw [List.drop_append_of_le_length hn]
  exact List.forall_mem_append.mpr ⟨h, List.forall_mem_singleton.mpr hnew⟩

theorem StreamState.Follows.write {asked attached : ℕ}
    (h : s.Follows stack containerName label asked attached) {line : LogLine}
    (hline : line.IsReadLive stack containerName label) :
    StreamState.Follows stack containerName label asked attached
      { s with log := s.log ++ [line] } := by
  have hattached := h.attached_le.trans h.printed_le
  have htake : ∀ {n : ℕ}, n ≤ s.log.length → (s.log ++ [line]).take n = s.log.take n :=
    fun hn => List.take_append_of_le_length hn
  refine ⟨h.asked_le, h.attached_le, h.printed_le.trans (by simp), ?_,
    ?_, ?_, h.whole, h.readable⟩
  · simpa only [htake hattached] using h.blank
  · exact forall_mem_drop_write hattached h.read hline
  · simpa only [htake h.printed_le] using h.entries

theorem StreamState.SoundIn.query (hdocker : ∀ log, (docker log (logArgs containerName isCompose
      (countText historyTail) none)).Prints label (log.rtake historyTail))
    (h : s.SoundIn stack containerName label .idle)
    (hfits : (printedLines label (s.log.rtake historyTail)).Fits)
    (hread : ∀ line ∈ s.log.rtake historyTail, line.IsRead stack containerName label) :
    (s.query stack docker containerName isCompose).Sound stack containerName label := by
  obtain ⟨hhistory, -, hquiet⟩ := h
  have hlines : ∀ line ∈ s.log.rtake historyTail, ∃ entry,
      line.reading stack containerName label = .ok entry := by
    intro line hline
    have hok := (hread line hline).1
    cases hreading : line.reading stack containerName label with
    | ok entry => exact ⟨entry, rfl⟩
    | error e =>
        rw [hreading] at hok
        cases hok
  obtain ⟨entries, hentries, hperm⟩ := fetchLogEntries_of_ok (hdocker s.log) hfits hlines
  have hscope : (s.log.take s.log.length).drop (s.log.length - historyTail) =
      s.log.rtake historyTail := by rw [List.take_length, List.rtake]
  unfold StreamState.query
  rw [hentries]
  refine ⟨⟨le_refl _, ?_, ?_⟩, hquiet, ?_⟩
  · dsimp only
    rwa [hscope, hhistory, List.nil_append]
  · dsimp only
    rw [hscope]
    exact fun line hline => (hread line hline).2
  · dsimp only
    rw [List.drop_length]
    simp

theorem emitOutputLines_append {front back : List Byte}
    (h : shownLine (openLine isBreakByte front) = [] ∨
      shownLine (firstLine isBreakByte back) = []) :
    emitOutputLines (front ++ back) = emitOutputLines front ++ emitOutputLines back := by
  simp only [emitOutputLines_eq]
  exact (emitted_cut isBreakByte shows_shownLine front back).2.1 h

theorem emitOutputLines_end (text : List Byte) :
    emitOutputLines (text ++ [10]) = emitOutputLines text := by
  rw [emitOutputLines_append (Or.inr (by decide)), show emitOutputLines [10] = [] by decide,
    List.append_nil]

theorem StreamState.Follows.print {asked attached : ℕ}
    (h : s.Follows stack containerName label asked attached) {line : LogLine}
    (hline : s.log[s.printed]? = some line) :
    (s.print label line).Follows stack containerName label asked attached := by
  obtain ⟨hlt, hget⟩ := List.getElem?_eq_some_iff.mp hline
  have hmem : line ∈ s.log.drop attached := by
    refine List.mem_of_getElem? (i := s.printed - attached) ?_
    rw [List.getElem?_drop, Nat.add_sub_cancel' h.attached_le, hline]
  obtain ⟨hreadable, hentry, -⟩ := h.read line hmem
  have htake : (s.log.take (s.printed + 1)).drop attached =
      (s.log.take s.printed).drop attached ++ [line] := by
    rw [List.take_add_one, hline, List.drop_append_of_le_length]
    · rfl
    · rw [List.length_take]
      exact le_min h.attached_le (h.attached_le.trans h.printed_le)
  have hpipe : ∀ {stderr : Bool}, emitOutputLines (s.pipe stderr ++ (line.printed label ++ [10])) =
      emitOutputLines (s.pipe stderr) ++ emitOutputLines (line.printed label) := by
    intro stderr
    rw [emitOutputLines_append (Or.inl (by rw [h.whole]; rfl)), emitOutputLines_end]
  refine ⟨h.asked_le, h.attached_le.trans (Nat.le_succ _), hlt, h.blank, h.read,
    fun stderr => ?_, fun stderr => ?_, fun stderr => ?_⟩
  · change s.live stderr ++ _ =
      List.filterMap _ (ofStream stderr ((s.log.take (s.printed + 1)).drop attached))
    rw [htake, ofStream, List.filter_append, List.filterMap_append, s.print_pipe]
    split_ifs with hstream
    · subst hstream
      rw [hpipe, List.filterMap_append, ← List.append_assoc, h.entries, hentry]
      congr 1
      have hsame : [line].filter (fun other => other.stderr == line.stderr) = [line] := by simp
      rw [hsame]
      cases hline : line.entry stack containerName label <;> simp [hline]
    · have hother : [line].filter (fun line => line.stderr == stderr) = [] := by
        simp [Ne.symm hstream]
      rw [hother, List.filterMap_nil, List.append_nil]
      exact h.entries stderr
  · rw [s.print_pipe]
    split_ifs
    · rw [← List.append_assoc]
      exact openLine_line (by decide) []
    · exact h.whole stderr
  · rw [s.print_pipe]
    split_ifs
    · rw [hpipe]
      exact List.forall_mem_append.mpr ⟨h.readable _, hreadable⟩
    · exact h.readable stderr

theorem openLine_eq_nil_of_append {front back : List Byte}
    (h : openLine isBreakByte (front ++ back) = []) : openLine isBreakByte back = [] := by
  induction front with
  | nil => exact h
  | cons b front ih =>
      rw [List.cons_append, openLine] at h
      split_ifs at h
      exact ih h

theorem StreamState.Follows.data {asked attached : ℕ}
    (h : s.Follows stack containerName label asked attached) {stderr : Bool} {size : ℕ}
    (hcut : shownLine (openLine isBreakByte ((s.pipe stderr).take size)) = [] ∨
      shownLine (firstLine isBreakByte ((s.pipe stderr).drop size)) = []) :
    (s.data stack containerName stderr size).Follows stack containerName label asked attached := by
  have hsplit := emitOutputLines_append hcut
  rw [List.take_append_drop] at hsplit
  have hreadable := h.readable stderr
  rw [hsplit, List.forall_mem_append] at hreadable
  have hpushed := congrArg Prod.fst (pushEntries_of_readable stderr hreadable.1)
  refine ⟨h.asked_le, h.attached_le, h.printed_le, h.blank, h.read,
    fun stream => ?_, fun stream => ?_, fun stream => ?_⟩
  · rw [s.data_pipe, s.data_live]
    split_ifs with hstream
    · subst hstream
      refine Eq.trans ?_ (h.entries stream)
      rw [hsplit, List.filterMap_append, List.append_assoc]
      exact congrArg (fun entries => s.live stream ++ (entries ++ _)) hpushed
    · exact h.entries stream
  · rw [s.data_pipe]
    split_ifs with hstream
    · subst hstream
      have hwhole := h.whole stream
      rw [← List.take_append_drop size (s.pipe stream)] at hwhole
      exact openLine_eq_nil_of_append hwhole
    · exact h.whole stream
  · rw [s.data_pipe]
    split_ifs with hstream
    · subst hstream
      exact hreadable.2
    · exact h.readable stream

theorem StreamState.SoundIn.write {phase : Phase} (h : s.SoundIn stack containerName label phase)
    {line : LogLine} (hline : MayWrite stack containerName label line phase) :
    StreamState.SoundIn stack containerName label { s with log := s.log ++ [line] } phase := by
  cases phase with
  | idle => exact h
  | rejected asked => exact h
  | sending asked => exact ⟨h.1.write line, h.2.1, forall_mem_drop_write h.1.le h.2.2 hline⟩
  | following asked attached => exact ⟨h.1.write line, h.2.1, h.2.2.write hline⟩

theorem StreamState.SoundIn.batch {phase : Phase} (h : s.SoundIn stack containerName label phase)
    (hbatches : s.batches ≠ []) : StreamState.SoundIn stack containerName label
      { s with
        history := s.history ++ s.batches.take historyBatchSize
        batches := s.batches.drop historyBatchSize } phase := by
  cases phase with
  | idle => exact absurd h.2.1 hbatches
  | rejected asked => exact h
  | sending asked =>
      refine ⟨⟨h.1.le, ?_, h.1.read⟩, h.2⟩
      rw [List.append_assoc, List.take_append_drop]
      exact h.1.entries
  | following asked attached => exact absurd h.2.1 hbatches

/-- With the attach the following process is past every line so far. -/
theorem StreamState.SoundIn.attach {asked : ℕ}
    (h : s.SoundIn stack containerName label (.sending asked)) (hbatches : s.batches = []) : StreamState.SoundIn stack containerName label
      { s with phase := .following asked s.log.length, printed := s.log.length }
        (.following asked s.log.length) := by
  obtain ⟨hsent, hquiet, hblank⟩ := h
  refine ⟨⟨hsent.le, hsent.entries, hsent.read⟩, hbatches,
    hsent.le, le_refl _, le_refl _, ?_, ?_, ?_, ?_, ?_⟩
  · simpa only [List.take_length] using hblank
  · simp
  · intro stderr
    simp [(hquiet stderr).1, (hquiet stderr).2, ofStream, emitOutputLines, utf8Text, decodeUtf8,
      outputLines, splitLines, visibleLines, cleanLine, stripAnsi, stripFrom, trim]
  · intro stderr
    rw [(hquiet stderr).1]
    rfl
  · intro stderr shown hshown
    rw [(hquiet stderr).1] at hshown
    cases hshown

theorem StreamState.SoundIn.data {phase : Phase} (h : s.SoundIn stack containerName label phase)
    {stderr : Bool} {size : ℕ} (hsize : 0 < size ∧ size ≤ (s.pipe stderr).length)
    (hcut : shownLine (openLine isBreakByte ((s.pipe stderr).take size)) = [] ∨
      shownLine (firstLine isBreakByte ((s.pipe stderr).drop size)) = []) :
    (s.data stack containerName stderr size).SoundIn stack containerName label phase := by
  have hopen : ¬ s.Quiet := by
    intro hquiet
    rw [(hquiet stderr).1] at hsize
    exact absurd hsize.2 (not_le.mpr hsize.1)
  cases phase with
  | idle => exact absurd h.2.2 hopen
  | rejected asked => exact h
  | sending asked => exact absurd h.2.1 hopen
  | following asked attached =>
      exact ⟨⟨h.1.le, h.1.entries, h.1.read⟩, h.2.1, h.2.2.data hcut⟩

theorem StreamState.Sound.step (hdocker : ∀ log, (docker log (logArgs containerName isCompose
      (countText historyTail) none)).Prints label (log.rtake historyTail))
    {event : StreamEvent} {t : StreamState} (h : s.Sound stack containerName label)
    (hok : KeepsUp stack containerName label s event)
    (hstep : (logStream stack docker containerName isCompose label).step s event = some t) :
    t.Sound stack containerName label := by
  cases event with
  | write line =>
      obtain rfl := Option.some.inj hstep
      exact StreamState.SoundIn.write h hok
  | query =>
      change (if s.phase = .idle then _ else _) = _ at hstep
      split_ifs at hstep with hidle
      obtain rfl := Option.some.inj hstep
      rw [StreamState.Sound, hidle] at h
      exact h.query hdocker hok.1 hok.2
  | batch =>
      change (if s.batches = [] then _ else _) = _ at hstep
      split_ifs at hstep with hbatches
      obtain rfl := Option.some.inj hstep
      exact StreamState.SoundIn.batch h hbatches
  | attach =>
      change (match s.phase with | .sending asked => _ | _ => none) = _ at hstep
      split at hstep
      · rename_i asked hphase
        split_ifs at hstep with hbatches
        obtain rfl := Option.some.inj hstep
        rw [StreamState.Sound, hphase] at h
        exact h.attach hbatches
      · cases hstep
  | print =>
      change (match s.phase, s.log[s.printed]? with
        | .following _ _, some line => _
        | _, _ => none) = _ at hstep
      split at hstep
      · rename_i asked attached line hphase hline
        obtain rfl := Option.some.inj hstep
        rw [StreamState.Sound, hphase] at h
        change StreamState.SoundIn stack containerName label (s.print label line) s.phase
        rw [hphase]
        exact ⟨⟨h.1.le, h.1.entries, h.1.read⟩, h.2.1, h.2.2.print hline⟩
      · cases hstep
  | data stderr size =>
      change (if 0 < size ∧ size ≤ (s.pipe stderr).length then _ else _) = _ at hstep
      split_ifs at hstep with hsize
      obtain rfl := Option.some.inj hstep
      exact StreamState.SoundIn.data h hsize hok

/-- Blank lines have no entry, so the entries are those of the other lines. -/
theorem map_entry_nonblank {lines : List LogLine}
    (h : ∀ line ∈ lines, line.isBlank = false → (line.entry stack containerName label).isSome) :
    (lines.filter fun line => !line.isBlank).map (LogLine.entry stack containerName label) =
      (lines.filterMap (LogLine.entry stack containerName label)).map some := by
  induction lines with
  | nil => rfl
  | cons line lines ih =>
      obtain ⟨hline, hlines⟩ := List.forall_mem_cons.mp h
      cases hblank : line.isBlank with
      | true =>
          rw [List.filter_cons_of_neg (by simp [hblank]), List.filterMap_cons,
            line.entry_of_isBlank stack containerName label hblank]
          exact ih hlines
      | false =>
          obtain ⟨entry, hentry⟩ := Option.isSome_iff_exists.mp (hline hblank)
          rw [List.filter_cons_of_pos (by simp [hblank]), List.map_cons, ih hlines,
            List.filterMap_cons, hentry]
          rfl

theorem drop_eq_between {log : List LogLine} {m n : ℕ} (hmn : m ≤ n) (hn : n ≤ log.length) :
    log.drop m = (log.take n).drop m ++ log.drop n := by
  have hle : m ≤ (log.take n).length := by rw [List.length_take]; omega
  rw [← List.drop_append_of_le_length hle, List.take_append_drop]

/-- What is delivered when nothing is on its way any more. -/
theorem StreamState.Sound.deliveredOnce (h : s.Sound stack containerName label)
    (hsettled : s.Settled) : s.DeliveredOnce stack containerName label := by
  unfold StreamState.Sound at h
  unfold StreamState.Settled at hsettled
  cases hphase : s.phase with
  | idle =>
      rw [hphase] at hsettled
      exact hsettled.elim
  | rejected asked =>
      rw [hphase] at h
      exact h.elim
  | sending asked =>
      rw [hphase] at hsettled
      exact hsettled.elim
  | following asked attached =>
      rw [hphase] at h hsettled
      obtain ⟨hsent, hbatches, hfollows⟩ := h
      obtain ⟨hprinted, hempty⟩ := hsettled
      have hattached := hfollows.attached_le.trans hfollows.printed_le
      have hscope : s.log.drop (asked - historyTail) =
          (s.log.take asked).drop (asked - historyTail) ++
            ((s.log.take attached).drop asked ++ s.log.drop attached) := by
        rw [← drop_eq_between hfollows.asked_le hattached,
          ← drop_eq_between (Nat.sub_le _ _) hsent.le]
      have hhistory := hsent.entries
      rw [hbatches, List.append_nil] at hhistory
      have hlive : ∀ stderr, s.live stderr =
          (ofStream stderr (s.log.drop attached)).filterMap
            (LogLine.entry stack containerName label) := by
        intro stderr
        have hentries := hfollows.entries stderr
        rw [hempty, hprinted, List.take_length] at hentries
        rwa [show emitOutputLines [] = [] by decide, List.filterMap_nil, List.append_nil]
          at hentries
      have hblank : ((s.log.take attached).drop asked).filterMap
          (LogLine.entry stack containerName label) = [] :=
        List.filterMap_eq_nil_iff.mpr fun line hline =>
          line.entry_of_isBlank stack containerName label (hfollows.blank line hline)
      unfold StreamState.DeliveredOnce
      rw [hphase]
      change List.Perm _ (((s.log.drop (asked - historyTail)).filter _).map _)
      rw [map_entry_nonblank, hscope, List.filterMap_append, List.filterMap_append, hblank,
        List.nil_append, hlive, hlive]
      · exact (hhistory.append (entries_perm _ _)).map some
      · rw [hscope]
        refine List.forall_mem_append.mpr ⟨hsent.read, List.forall_mem_append.mpr ⟨?_, ?_⟩⟩
        · intro line hline hnot
          rw [hfollows.blank line hline] at hnot
          cases hnot
        · exact fun line hline => (hfollows.read line hline).2.2

end Steps

/-- 2026-01-05T10:00:00Z and some seconds. -/
def secondLine (second : Fin 60) (text : List Byte)
    (h : text.all (fun b => !isNewline b) = true) : LogLine where
  time := 1767607200000000000 + second * 1000000000
  stderr := false
  text := text
  inRange := by omega
  oneLine := oneLine_of_all h

def startingLine : LogLine := secondLine 0 (utf8Bytes (js "starting")) starting_oneLine

def readyLine : LogLine := secondLine 1 (utf8Bytes (js "ready")) ready_oneLine

/-- A docker that is only asked for the history. -/
def historyDocker (log : List LogLine) (_args : List JsString) : Exit :=
  printedLines none (log.rtake historyTail)

end OpticsAgent.Docker
