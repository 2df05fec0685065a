import Mathlib
import OpticsAgent.Docker.Output
import OpticsAgent.Ecma.NumberText
import OpticsAgent.Ecma.Split
import OpticsAgent.Ecma.StringToNumber
import OpticsAgent.Lib.Machine

/-!
`followUpdaterLogs`: the output of the updater container goes to the Hub line
by line. Both streams share one handler, so they share its buffer for the line
that has not ended, and every chunk is decoded on its own.
-/

namespace OpticsAgent.Update

open OpticsAgent.Ecma OpticsAgent.Node OpticsAgent.Lib OpticsAgent.Docker

inductive Stream where
  | stdout
  | stderr
  deriving DecidableEq

def Stream.other : Stream → Stream
  | stdout => stderr
  | stderr => stdout

theorem Stream.eq_or_eq_other (a b : Stream) : a = b ∨ a = b.other := by
  cases a <;> cases b <;> simp [Stream.other]

@[simp] theorem Stream.other_other (a : Stream) : a.other.other = a := by
  cases a <;> rfl

theorem Stream.other_ne (a : Stream) : a.other ≠ a := by
  cases a <;> simp [Stream.other]

/-- The variables of the closure, what was reported, and what has arrived. -/
structure Followed where
  buffered : JsString := []
  lastLine : JsString := []
  /-- The calls of `report.progress`, oldest first. -/
  progress : List JsString := []
  /-- The call of `report.failed`, once the output has ended. -/
  failed : Option JsString := none
  /-- The bytes of each stream so far; the code does not keep them. -/
  received : Stream → List Byte := fun _ => []

namespace Followed

def reportLine (s : Followed) (line : JsString) : Followed :=
  let trimmed := cleanLine line
  if trimmed = [] then s
  else { s with lastLine := trimmed, progress := s.progress ++ [trimmed] }

/-- The last part of the text is not a line yet. -/
def forward (s : Followed) (chunk : List Byte) : Followed :=
  let lines := splitUnit 10 (s.buffered ++ utf8Text chunk)
  lines.dropLast.foldl reportLine { s with buffered := lines.getLast?.getD [] }

/-- One `data` event of a stream. -/
def receive (s : Followed) (stream : Stream) (chunk : List Byte) : Followed :=
  { s.forward chunk with
    received := Function.update s.received stream (s.received stream ++ chunk) }

def exitSuffix (inspected : JsString) : JsString :=
  let exitCode := numberOfText (trim inspected)
  if exitCode.isFinite && !exitCode.strictEq (Number.ofInt 0) then
    js " (exit " ++ exitCode.toText ++ js ")"
  else []

/-- `inspected` is what `docker inspect` prints. -/
def onClose (s : Followed) (inspected : JsString) : Followed :=
  let message := if s.lastLine = [] then js "업데이터가 결과를 남기지 않고 종료했습니다." else s.lastLine
  { s with failed := some (message ++ exitSuffix inspected) }

end Followed

inductive Event where
  | data (stream : Stream) (chunk : List Byte)
  | close (inspected : JsString)

/-- `close` comes once, after the data of both streams. -/
def step (s : Followed) : Event → Option Followed
  | .data stream chunk =>
      if s.failed.isNone then some (s.receive stream chunk) else none
  | .close inspected => if s.failed.isNone then some (s.onClose inspected) else none

def follower : Machine Followed Event where
  step := step

def start : Followed := {}

/-! ## What should be reported -/

namespace Followed

def text (s : Followed) (stream : Stream) : JsString := utf8Text (s.received stream)

/-- The lines of a stream that are not blank, the last one also without a line
feed. -/
def streamLines (s : Followed) (stream : Stream) : List JsString :=
  visibleLines (splitUnit 10 (s.text stream))

/-- Every line of both streams was reported, in order, and the message starts
with the last one. -/
structure ReportedWhole (s : Followed) (message : JsString) : Prop where
  lines : Interleaves (s.streamLines .stdout) (s.streamLines .stderr) s.progress
  last : ∀ line, s.progress.getLast? = some line → line <+: message

def isLineFeed (c : CodeUnit) : Bool := c == 10

/-- What a stream has behind its last line feed. -/
def openText (s : Followed) (stream : Stream) : JsString := openLine isLineFeed (s.text stream)

/-- A chunk is decoded as it is in its stream, and the other stream has nothing
open but blanks; when the output ends, neither has. -/
def Unmixed (s : Followed) : Event → Prop
  | .data stream chunk =>
      utf8Text (s.received stream ++ chunk) = s.text stream ++ utf8Text chunk ∧
        cleanLine (s.openText stream.other) = []
  | .close _ => cleanLine (s.openText .stdout) = [] ∧ cleanLine (s.openText .stderr) = []

instance (s : Followed) : ∀ event, Decidable (Unmixed s event)
  | .data _ _ => inferInstanceAs (Decidable (_ ∧ _))
  | .close _ => inferInstanceAs (Decidable (_ ∧ _))

/-! ## Chunks -/

theorem visibleLines_append (lines more : List JsString) :
    visibleLines (lines ++ more) = visibleLines lines ++ visibleLines more := by
  rw [visibleLines, List.map_append, List.filter_append]
  rfl

theorem foldl_reportLine (lines : List JsString) (s : Followed) :
    lines.foldl reportLine s = { s with
      lastLine := (visibleLines lines).getLast?.getD s.lastLine
      progress := s.progress ++ visibleLines lines } := by
  induction lines generalizing s with
  | nil => simp [visibleLines]
  | cons line rest ih =>
      rw [List.foldl_cons, ih, visibleLines_cons, visibleLines_singleton, reportLine]
      split_ifs with hblank
      · rfl
      · simp only [List.singleton_append, List.append_assoc]
        cases hrest : visibleLines rest with
        | nil => simp
        | cons next more => simp [List.getLast?_cons]

theorem forward_eq (s : Followed) (chunk : List Byte) :
    s.forward chunk = { s with
      buffered := openLine isLineFeed (s.buffered ++ utf8Text chunk)
      lastLine := (visibleLines (completeLines isLineFeed
        (s.buffered ++ utf8Text chunk))).getLast?.getD s.lastLine
      progress := s.progress ++ visibleLines (completeLines isLineFeed
        (s.buffered ++ utf8Text chunk)) } := by
  have hsplit := splitUnit_eq_pieces 10 (s.buffered ++ utf8Text chunk)
  change _ = completeLines isLineFeed _ ++ [openLine isLineFeed _] at hsplit
  unfold forward
  dsimp only
  rw [hsplit, foldl_reportLine, List.dropLast_concat, List.getLast?_concat]
  rfl

/-- Blanks in front change neither the lines that show nor what is open behind
the last line feed, but for blanks. -/
theorem lines_of_blank_front {front : JsString} (hblank : cleanLine front = [])
    (hfront : ∀ c ∈ front, isLineFeed c = false) (rest : JsString) :
    visibleLines (completeLines isLineFeed (front ++ rest)) =
        visibleLines (completeLines isLineFeed rest) ∧
      ∃ front', cleanLine front' = [] ∧
        openLine isLineFeed (front ++ rest) = front' ++ openLine isLineFeed rest := by
  rcases lines_of_front hfront rest with ⟨hnone, hboth, hopen⟩ | ⟨line, lines, hlines, hboth, hopen⟩
  · refine ⟨?_, front, hblank, hopen⟩
    rw [hnone, hboth]
  · refine ⟨?_, [], rfl, hopen⟩
    rw [hlines, hboth, visibleLines_cons, visibleLines_cons line, visibleLines_singleton,
      visibleLines_singleton, cleanLine_append_left hblank]

/-- The texts are the same behind blanks in front of them. -/
def SameBehindBlanks (a b : JsString) : Prop :=
  ∃ front front' core, a = front ++ core ∧ b = front' ++ core ∧
    cleanLine front = [] ∧ cleanLine front' = []

theorem SameBehindBlanks.blank {a b : JsString} (h : SameBehindBlanks a b)
    (hb : cleanLine b = []) : cleanLine a = [] := by
  obtain ⟨front, front', core, rfl, rfl, hfront, hfront'⟩ := h
  rw [cleanLine_append_left hfront'] at hb
  rw [cleanLine_append_left hfront, hb]

theorem sameBehindBlanks_of_blank {a b : JsString} (ha : cleanLine a = [])
    (hb : cleanLine b = []) : SameBehindBlanks a b :=
  ⟨a, b, [], (List.append_nil a).symm, (List.append_nil b).symm, ha, hb⟩

/-- More text ends the same lines behind either of them. -/
theorem SameBehindBlanks.append {a b : JsString} (h : SameBehindBlanks a b)
    (ha : ∀ c ∈ a, isLineFeed c = false) (hb : ∀ c ∈ b, isLineFeed c = false) (more : JsString) :
    visibleLines (completeLines isLineFeed (a ++ more)) =
        visibleLines (completeLines isLineFeed (b ++ more)) ∧
      SameBehindBlanks (openLine isLineFeed (a ++ more)) (openLine isLineFeed (b ++ more)) := by
  obtain ⟨front, front', core, rfl, rfl, hfront, hfront'⟩ := h
  obtain ⟨hlines, before, hbefore, hopen⟩ := lines_of_blank_front hfront
    (fun c hc => ha c (List.mem_append_left core hc)) (core ++ more)
  obtain ⟨hlines', before', hbefore', hopen'⟩ := lines_of_blank_front hfront'
    (fun c hc => hb c (List.mem_append_left core hc)) (core ++ more)
  rw [List.append_assoc, List.append_assoc, hlines, hlines', hopen, hopen']
  exact ⟨rfl, before, before', _, rfl, rfl, hbefore, hbefore'⟩

theorem openLine_clean (xs : JsString) : ∀ c ∈ openLine isLineFeed xs, isLineFeed c = false :=
  completeLines_eq_nil_iff.mp (completeLines_openLine xs)

/-! ## The shared buffer -/

/-- The lines of a stream that have ended. -/
def endedLines (s : Followed) (stream : Stream) : List JsString :=
  visibleLines (completeLines isLineFeed (s.text stream))

/-- All lines that have ended were reported, and the buffer is what the one
stream has open, up to blanks, while the other has nothing open but blanks. -/
structure Carried (s : Followed) : Prop where
  reported : Interleaves (s.endedLines .stdout) (s.endedLines .stderr) s.progress
  last : s.lastLine = s.progress.getLast?.getD []
  clean : ∀ c ∈ s.buffered, isLineFeed c = false
  carry : ∃ stream, SameBehindBlanks s.buffered (s.openText stream) ∧
    cleanLine (s.openText stream.other) = []

theorem carried_start : start.Carried :=
  ⟨.nil, rfl, fun _ hc => absurd hc List.not_mem_nil,
    .stdout, sameBehindBlanks_of_blank rfl rfl, rfl⟩

theorem streamLines_eq (s : Followed) (stream : Stream) :
    s.streamLines stream = s.endedLines stream ++ visibleLines [s.openText stream] := by
  have hsplit := splitUnit_eq_pieces 10 (s.text stream)
  change _ = completeLines isLineFeed _ ++ [openLine isLineFeed _] at hsplit
  rw [streamLines, hsplit, visibleLines_append]
  rfl

/-- Before a chunk of a stream whose other side has only blanks open, the buffer
is what that stream has open. -/
theorem Carried.sameBehindBlanks {s : Followed} (hs : s.Carried) {stream : Stream}
    (hother : cleanLine (s.openText stream.other) = []) :
    SameBehindBlanks s.buffered (s.openText stream) := by
  obtain ⟨holder, hsame, hblank⟩ := hs.carry
  rcases Stream.eq_or_eq_other holder stream with rfl | rfl
  · exact hsame
  · rw [Stream.other_other] at hblank
    exact sameBehindBlanks_of_blank (hsame.blank hother) hblank

theorem text_receive_self {s : Followed} {stream : Stream} {chunk : List Byte}
    (hwhole : utf8Text (s.received stream ++ chunk) = s.text stream ++ utf8Text chunk) :
    (s.receive stream chunk).text stream = s.text stream ++ utf8Text chunk := by
  have hreceived : (s.receive stream chunk).received stream = s.received stream ++ chunk :=
    Function.update_self stream _ _
  rw [text, hreceived, hwhole]

theorem text_receive_other (s : Followed) (stream : Stream) (chunk : List Byte) :
    (s.receive stream chunk).text stream.other = s.text stream.other := by
  have hreceived : (s.receive stream chunk).received stream.other = s.received stream.other :=
    Function.update_of_ne stream.other_ne _ _
  rw [text, hreceived]
  rfl

theorem Carried.receive {s : Followed} (hs : s.Carried) {stream : Stream} {chunk : List Byte}
    (hwhole : utf8Text (s.received stream ++ chunk) = s.text stream ++ utf8Text chunk)
    (hother : cleanLine (s.openText stream.other) = []) : (s.receive stream chunk).Carried := by
  have hself := text_receive_self hwhole
  have hkept := s.text_receive_other stream chunk
  obtain ⟨hlines, hopen⟩ := (hs.sameBehindBlanks hother).append hs.clean
    (openLine_clean (s.text stream)) (utf8Text chunk)
  have hended : (s.receive stream chunk).endedLines stream = s.endedLines stream ++
      visibleLines (completeLines isLineFeed (s.buffered ++ utf8Text chunk)) := by
    rw [endedLines, hself, completeLines_append, visibleLines_append, ← openText, hlines]
    rfl
  have hendedOther : (s.receive stream chunk).endedLines stream.other =
      s.endedLines stream.other := by
    rw [endedLines, hkept]
    rfl
  have hforward := s.forward_eq chunk
  refine ⟨?_, ?_, ?_, stream, ?_, ?_⟩
  · change Interleaves _ _ (s.forward chunk).progress
    rw [hforward]
    cases stream with
    | stdout =>
        rw [hended, show (s.receive .stdout chunk).endedLines .stderr = s.endedLines .stderr from
          hendedOther]
        exact hs.reported.append_left _
    | stderr =>
        rw [hended, show (s.receive .stderr chunk).endedLines .stdout = s.endedLines .stdout from
          hendedOther]
        exact hs.reported.append_right _
  · change (s.forward chunk).lastLine = (s.forward chunk).progress.getLast?.getD []
    rw [hforward]
    dsimp only
    rw [hs.last, List.getLast?_append]
    cases (visibleLines (completeLines isLineFeed (s.buffered ++ utf8Text chunk))).getLast? <;> rfl
  · change ∀ c ∈ (s.forward chunk).buffered, _
    rw [hforward]
    exact openLine_clean _
  · change SameBehindBlanks (s.forward chunk).buffered _
    rw [hforward, openText, hself, openLine_append (s.text stream)]
    exact hopen
  · rw [openText, hkept]
    exact hother

theorem failed_receive (s : Followed) (stream : Stream) (chunk : List Byte) :
    (s.receive stream chunk).failed = s.failed := by
  change (s.forward chunk).failed = s.failed
  rw [forward_eq]

/-- When neither stream has anything but blanks open, the lines that have ended
are all lines. -/
theorem Carried.reportedWhole {s : Followed} (hs : s.Carried)
    (hstdout : cleanLine (s.openText .stdout) = []) (hstderr : cleanLine (s.openText .stderr) = [])
    (inspected : JsString) :
    ∃ message, (s.onClose inspected).failed = some message ∧
      (s.onClose inspected).ReportedWhole message := by
  have hall (stream : Stream) (hblank : cleanLine (s.openText stream) = []) :
      s.streamLines stream = s.endedLines stream := by
    rw [streamLines_eq, visibleLines_singleton, if_pos hblank, List.append_nil]
  refine ⟨_, rfl, ?_, ?_⟩
  · change Interleaves (s.streamLines .stdout) (s.streamLines .stderr) s.progress
    rw [hall _ hstdout, hall _ hstderr]
    exact hs.reported
  · intro line hline
    have hlast : s.lastLine = line := by
      rw [hs.last]
      exact congrArg (Option.getD · []) hline
    have hvisible : line ≠ [] := by
      have hmem : line ∈ s.progress := List.mem_of_getLast? hline
      rcases hs.reported.mem hmem with h | h
      · exact of_decide_eq_true (List.mem_filter.mp h).2
      · exact of_decide_eq_true (List.mem_filter.mp h).2
    rw [hlast, if_neg hvisible]
    exact List.prefix_append _ _

/-- Carried, and once the output has ended reported as a whole. -/
def Whole (s : Followed) : Prop :=
  s.Carried ∧ ∀ message, s.failed = some message → s.ReportedWhole message

theorem Whole.step {s s' : Followed} {event : Event} (hs : s.Whole) (hunmixed : s.Unmixed event)
    (hstep : step s event = some s') : s'.Whole := by
  cases event with
  | data stream chunk =>
      obtain ⟨hrunning, hnext⟩ := Option.ite_none_right_eq_some.mp hstep
      obtain rfl := Option.some.inj hnext
      refine ⟨hs.1.receive hunmixed.1 hunmixed.2, ?_⟩
      intro message hmessage
      rw [failed_receive, Option.isNone_iff_eq_none.mp hrunning] at hmessage
      cases hmessage
  | close inspected =>
      obtain ⟨-, hnext⟩ := Option.ite_none_right_eq_some.mp hstep
      obtain rfl := Option.some.inj hnext
      obtain ⟨message, hfailed, hwhole⟩ := hs.1.reportedWhole hunmixed.1 hunmixed.2 inspected
      refine ⟨⟨hs.1.reported, hs.1.last, hs.1.clean, hs.1.carry⟩, ?_⟩
      intro other hother
      rw [hfailed] at hother
      obtain rfl := Option.some.inj hother
      exact hwhole

end Followed

/-- When no chunk ends inside a character or arrives while the other stream has
a line open, and the output ends with a line feed, every line is reported and
the message starts with the last one. -/
theorem updater_output_whole {s : Followed} {events : List Event} {message : JsString}
    (hrun : follower.run start events = some s)
    (hunmixed : follower.Along Followed.Unmixed start events)
    (hclosed : s.failed = some message) : s.ReportedWhole message := by
  have hstart : start.Whole := by
    refine ⟨Followed.carried_start, ?_⟩
    intro other hother
    cases hother
  have hwhole : s.Whole := by
    apply hunmixed.run_invariant _ hstart hrun
    intro t event t' ht hevent hstep
    exact ht.step hevent hstep
  exact hwhole.2 message hclosed

/-- A line of each stream in two chunks, one behind the other. -/
theorem updater_output_whole_two_streams :
    let events : List Event := [.data .stdout (utf8Bytes (js "Pulling ")),
      .data .stdout (utf8Bytes (js "agent\n")), .data .stderr (utf8Bytes (js "no such ")),
      .data .stderr (utf8Bytes (js "image\n")), .close (js "1\n")]
    ∃ s, follower.run start events = some s ∧
      s.ReportedWhole (js "no such image (exit 1)") ∧
      s.progress = [js "Pulling agent", js "no such image"] := by
  intro events
  have hends : (follower.run start events).map (fun s => (s.progress, s.failed)) =
      some ([js "Pulling agent", js "no such image"], some (js "no such image (exit 1)")) := by
    decide +kernel
  have hunmixed : follower.Along Followed.Unmixed start events := by decide +kernel
  obtain ⟨s, hrun, hs⟩ := Option.map_eq_some_iff.mp hends
  obtain ⟨hprogress, hfailed⟩ := Prod.mk.inj hs
  exact ⟨s, hrun, updater_output_whole hrun hunmixed hfailed, hprogress⟩

/-- The last line has no line feed: it is not reported, and the message does
not name it. -/
theorem updater_output_whole_fails :
    ¬ ∀ (s : Followed) (events : List Event) (message : JsString),
      follower.run start events = some s → s.failed = some message →
      s.ReportedWhole message := by
  intro hclaim
  let events : List Event := [.data .stderr (utf8Bytes (js "no space left")), .close (js "1\n")]
  have hends : (follower.run start events).map (fun s =>
      (s.progress, s.streamLines .stderr, s.failed.isSome)) =
      some ([], [js "no space left"], true) := by decide +kernel
  obtain ⟨s, hrun, hs⟩ := Option.map_eq_some_iff.mp hends
  obtain ⟨hprogress, hlines, hfailed⟩ : s.progress = [] ∧
      s.streamLines .stderr = [js "no space left"] ∧ s.failed.isSome = true := by simpa using hs
  obtain ⟨message, hmessage⟩ := Option.isSome_iff_exists.mp hfailed
  have hlength := (hclaim s events message hrun hmessage).lines.length
  rw [hprogress, hlines] at hlength
  exact absurd hlength (by simp)

end OpticsAgent.Update
