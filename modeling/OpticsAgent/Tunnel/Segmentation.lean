import Mathlib
import OpticsAgent.Lib.Lines
import OpticsAgent.Tunnel.ReverseTunnel

/-!
`attachLineReader` on a byte stream that arrives in any pieces. Which frames are
handled is a function of the bytes alone, and when a frame detaches the reader,
the buffer handed over with it and the chunks behind it are the bytes after
that frame's newline.
-/

namespace OpticsAgent.Tunnel

open OpticsAgent.Ecma OpticsAgent.Node OpticsAgent.Lib

/-- The frames whose lines are complete. -/
def framesOf (bytes : List Byte) : List Frame :=
  (completeLines isNewline bytes).map parseFrame

section Reader

-- Whether the handler detaches at the last of the frames handled so far.
variable (detaches : List Frame → Bool)

/-- The calls of `handle`, oldest first, with the buffer passed to each. -/
abbrev Calls := List (Frame × List Byte)

def recordCall (frame : Frame) (rest : List Byte) (calls : Calls) : Calls × Bool :=
  (calls ++ [(frame, rest)], detaches (calls.map Prod.fst ++ [frame]))

/-- A connection's reader between two `data` events. -/
structure Reader where
  buffer : List Byte := []
  detached : Bool := false
  calls : Calls := []
  /-- What arrives once no reader listens any more. -/
  later : List (List Byte) := []
  deriving DecidableEq

def Reader.frames (r : Reader) : List Frame := r.calls.map Prod.fst

/-- One `data` event of the socket. -/
def Reader.receive (r : Reader) (chunk : List Byte) : Reader :=
  if r.detached then { r with later := r.later ++ [chunk] }
  else
    let (calls, buffer, detached) := onData (recordCall detaches) r.buffer chunk r.calls
    { buffer, detached, calls, later := r.later }

def receiveAll (chunks : List (List Byte)) : Reader :=
  chunks.foldl (Reader.receive detaches) {}

/-- What the local service reads: the pending bytes are written first, then the
socket is piped. -/
def forwarded (pending : List Byte) (later : List (List Byte)) : List Byte :=
  (if 0 < pending.length then pending else []) ++ later.flatten

/-- Handle frames until one detaches. -/
def consume : List Frame → List Frame → List Frame × Bool
  | handled, [] => (handled, false)
  | handled, frame :: frames =>
      if detaches (handled ++ [frame]) then (handled ++ [frame], true)
      else consume (handled ++ [frame]) frames

theorem consume_append (handled frames more : List Frame) :
    consume detaches handled (frames ++ more) =
      if (consume detaches handled frames).2 then consume detaches handled frames
      else consume detaches (consume detaches handled frames).1 more := by
  induction frames generalizing handled with
  | nil => rfl
  | cons frame frames ih =>
      rw [List.cons_append, consume, consume]
      cases h : detaches (handled ++ [frame]) with
      | true => rfl
      | false => exact ih (handled ++ [frame])

/-- What is handled is a front of the frames, and all of them without a detach. -/
theorem consume_prefix (handled frames : List Frame) :
    ∃ n ≤ frames.length, (consume detaches handled frames).1 = handled ++ frames.take n ∧
      ((consume detaches handled frames).2 = false → n = frames.length) := by
  induction frames generalizing handled with
  | nil => exact ⟨0, le_refl 0, by simp [consume], fun _ => rfl⟩
  | cons frame frames ih =>
      rw [consume]
      split_ifs with h
      · exact ⟨1, by simp, by simp, by simp⟩
      · obtain ⟨n, hn, hfront, hall⟩ := ih (handled ++ [frame])
        exact ⟨n + 1, by simpa using hn, by simpa using hfront, fun hgone => by simp [hall hgone]⟩

theorem takeLine_none {buffer : List Byte} (h : takeLine buffer = none) :
    completeLines isNewline buffer = [] := by
  induction buffer with
  | nil => rfl
  | cons b rest ih =>
      unfold takeLine at h
      split_ifs at h with hb
      have hrest := ih (Option.map_eq_none_iff.mp h)
      simp [completeLines, isNewline, hb, hrest, extendHead]

theorem takeLine_some {buffer line rest : List Byte} (h : takeLine buffer = some (line, rest)) :
    buffer = line ++ 10 :: rest ∧ ∀ b ∈ line, isNewline b = false := by
  induction buffer generalizing line with
  | nil => cases h
  | cons b tail ih =>
      unfold takeLine at h
      split_ifs at h with hb
      · obtain ⟨rfl, rfl⟩ := Prod.mk.inj (Option.some.inj h)
        exact ⟨by rw [hb]; rfl, by simp⟩
      · obtain ⟨⟨front, back⟩, htail, hcons⟩ := Option.map_eq_some_iff.mp h
        obtain ⟨rfl, rfl⟩ := Prod.mk.inj hcons
        obtain ⟨rfl, hfront⟩ := ih htail
        refine ⟨rfl, fun x hx => ?_⟩
        rcases List.mem_cons.mp hx with rfl | hmem
        · simpa [isNewline] using hb
        · exact hfront x hmem

/-- What the loop of one `data` event does. `n` counts the frames it handles. -/
structure Drained (calls : Calls) (buffer : List Byte) (result : Calls × List Byte × Bool) :
    Prop where
  frames : consume detaches (calls.map Prod.fst) (framesOf buffer) =
    (result.1.map Prod.fst, result.2.2)
  kept : result.2.2 = false → result.2.1 = openLine isNewline buffer
  handed : result.2.2 = true → ∃ n earlier frame,
    result.1 = earlier ++ [(frame, behind isNewline n buffer)] ∧
      result.1.length = calls.length + n ∧ n ≤ (completeLines isNewline buffer).length

theorem drained {fuel : ℕ} {buffer : List Byte} (calls : Calls)
    (hfuel : buffer.length ≤ fuel) :
    Drained detaches calls buffer
      (drain (recordCall detaches) fuel buffer calls) := by
  induction fuel generalizing buffer calls with
  | zero =>
      obtain rfl := List.eq_nil_of_length_eq_zero (Nat.le_zero.mp hfuel)
      exact ⟨rfl, fun _ => rfl, by simp [drain]⟩
  | succ fuel ih =>
      unfold drain
      cases hline : takeLine buffer with
      | none =>
          have hnone := takeLine_none hline
          refine ⟨?_, fun _ => (openLine_of_completeLines_nil hnone).symm, by simp⟩
          simp [framesOf, hnone, consume]
      | some p =>
          obtain ⟨line, rest⟩ := p
          have hlength := length_takeLine hline
          obtain ⟨rfl, hclean⟩ := takeLine_some hline
          have hlines : completeLines isNewline (line ++ 10 :: rest) =
              line :: completeLines isNewline rest := completeLines_line hclean rfl rest
          have hone : behind isNewline 1 (line ++ 10 :: rest) = rest := by
            rw [behind_line hclean rfl, behind]
          cases hstop : detaches (calls.map Prod.fst ++ [parseFrame line]) with
          | true =>
              simp only [recordCall, hstop]
              refine ⟨?_, by simp, fun _ => ⟨1, calls, parseFrame line, ?_, by simp, ?_⟩⟩
              · simp [framesOf, hlines, consume, hstop]
              · rw [hone]
              · rw [hlines]
                simp
          | false =>
              simp only [recordCall, hstop]
              have hrest := ih (calls ++ [(parseFrame line, rest)])
                (show rest.length ≤ fuel by omega)
              refine ⟨?_, fun hkept => ?_, fun hgone => ?_⟩
              · simpa [framesOf, hlines, consume, hstop] using hrest.frames
              · rw [openLine_line rfl, hrest.kept hkept]
              · obtain ⟨n, earlier, frame, hcalls, hcount, hle⟩ := hrest.handed hgone
                refine ⟨n + 1, earlier, frame, ?_, ?_, ?_⟩
                · rwa [behind_line hclean rfl]
                · rw [hcount, List.length_append, List.length_singleton]
                  omega
                · rw [hlines]
                  simpa using hle

/-- The reader after the bytes `received`. -/
structure Tracks (received : List Byte) (r : Reader) : Prop where
  frames : consume detaches [] (framesOf received) = (r.frames, r.detached)
  reading : r.detached = false → r.buffer = openLine isNewline received ∧ r.later = []
  handed : r.detached = true → ∃ earlier frame rest, r.calls = earlier ++ [(frame, rest)] ∧
    rest ++ r.later.flatten = behind isNewline r.calls.length received

theorem Tracks.receive {received : List Byte} {r : Reader}
    (h : Tracks detaches received r) (chunk : List Byte) :
    Tracks detaches (received ++ chunk) (r.receive detaches chunk) := by
  have hframes : framesOf (received ++ chunk) =
      framesOf received ++ framesOf (openLine isNewline received ++ chunk) := by
    rw [framesOf, completeLines_append, List.map_append]
    rfl
  cases hdetached : r.detached with
  | true =>
      rw [Reader.receive, if_pos hdetached]
      obtain ⟨earlier, frame, rest, hcalls, hrest⟩ := h.handed hdetached
      refine ⟨?_, by simp [hdetached], fun _ => ⟨earlier, frame, rest, hcalls, ?_⟩⟩
      · rw [hframes, consume_append, h.frames]
        simp [hdetached, Reader.frames]
      · have hcount : r.calls.length ≤ (completeLines isNewline received).length := by
          obtain ⟨n, hn, hfront, -⟩ := consume_prefix detaches [] (framesOf received)
          rw [h.frames] at hfront
          have hlength := congrArg List.length hfront
          simp [Reader.frames, framesOf] at hlength
          omega
        rw [List.flatten_append, ← List.append_assoc, hrest, behind_append hcount]
        simp
  | false =>
      obtain ⟨hbuffer, hlater⟩ := h.reading hdetached
      have hdrained := drained detaches r.calls (le_refl (r.buffer ++ chunk).length)
      rw [Reader.receive, if_neg (by simp [hdetached])]
      have hconsumed := h.frames
      rw [hdetached] at hconsumed
      refine ⟨?_, fun hkept => ⟨?_, hlater⟩, fun hgone => ?_⟩
      · rw [hframes, consume_append, hconsumed, ← hbuffer]
        exact hdrained.frames
      · rw [openLine_append, ← hbuffer]
        exact hdrained.kept hkept
      · obtain ⟨n, earlier, frame, hcalls, hcount, -⟩ := hdrained.handed hgone
        refine ⟨earlier, frame, _, hcalls, ?_⟩
        have hall : r.calls.length = (completeLines isNewline received).length := by
          obtain ⟨m, -, hfront, hm⟩ := consume_prefix detaches [] (framesOf received)
          rw [hconsumed] at hfront hm
          have hlength := congrArg List.length hfront
          simp [Reader.frames, hm rfl, framesOf] at hlength
          exact hlength
        change _ ++ r.later.flatten =
          behind isNewline (onData (recordCall detaches) r.buffer chunk r.calls).1.length _
        rw [hlater, List.flatten_nil, List.append_nil, onData, hcount, hall, behind_add, hbuffer]

theorem tracks_receiveAll (chunks : List (List Byte)) :
    Tracks detaches chunks.flatten (receiveAll detaches chunks) := by
  induction chunks using List.reverseRecOn with
  | nil => exact ⟨rfl, fun _ => ⟨rfl, rfl⟩, by simp [receiveAll]⟩
  | append_singleton chunks chunk ih =>
      rw [receiveAll, List.foldl_append, List.flatten_append]
      simpa [receiveAll] using ih.receive detaches chunk

theorem forwarded_eq (pending : List Byte) (later : List (List Byte)) :
    forwarded pending later = pending ++ later.flatten := by
  unfold forwarded
  cases pending <;> simp

/-- Which frames are handled depends on the bytes alone: the frames of the complete
lines up to the first that detaches, and all of them if none does. From the frame
that detaches on every byte is forwarded once. -/
theorem line_reader_segmentation (detaches : List Frame → Bool) (chunks : List (List Byte)) :
    (receiveAll detaches chunks).frames = (receiveAll detaches [chunks.flatten]).frames ∧
      (receiveAll detaches chunks).frames =
        (framesOf chunks.flatten).take (receiveAll detaches chunks).frames.length ∧
      consume detaches [] (framesOf chunks.flatten) =
        ((receiveAll detaches chunks).frames, (receiveAll detaches chunks).detached) ∧
      ∀ frame rest, (receiveAll detaches chunks).detached = true →
        (receiveAll detaches chunks).calls.getLast? = some (frame, rest) →
        forwarded rest (receiveAll detaches chunks).later =
          behind isNewline (receiveAll detaches chunks).frames.length chunks.flatten := by
  have hsplit := tracks_receiveAll detaches chunks
  have hwhole := tracks_receiveAll detaches [chunks.flatten]
  refine ⟨?_, ?_, hsplit.frames, ?_⟩
  · have hsame := hsplit.frames
    rw [List.flatten_singleton] at hwhole
    rw [hwhole.frames] at hsame
    exact (congrArg Prod.fst hsame).symm
  · obtain ⟨n, hn, hfront, -⟩ :=
      consume_prefix detaches [] (framesOf chunks.flatten)
    rw [hsplit.frames, List.nil_append] at hfront
    change (receiveAll detaches chunks).frames = _ at hfront
    have hlength : (receiveAll detaches chunks).frames.length = n := by
      rw [hfront, List.length_take, Nat.min_eq_left hn]
    rw [hlength]
    exact hfront
  · intro frame rest hdetached hlast
    obtain ⟨earlier, last, pending, hcalls, hrest⟩ := hsplit.handed hdetached
    rw [hcalls, List.getLast?_concat] at hlast
    obtain ⟨rfl, rfl⟩ := Prod.mk.inj (Option.some.inj hlast)
    rw [forwarded_eq, hrest, Reader.frames, List.length_map]

end Reader

/-- The pool's handler detaches at an OPEN and at no other frame. -/
theorem onFrame_detaches (c : ℕ) (frame : Frame) (rest : List Byte) (s : State) :
    (s.onFrame c frame rest).2 = decide (frame.verb = js "OPEN") := by
  unfold State.onFrame
  by_cases hopen : frame.verb = js "OPEN"
  · have hother : ∀ verb ∈ [js "PRE:OK", js "PRE:ERR", js "PONG"], js "OPEN" ≠ verb := by decide
    simp only [List.forall_mem_cons] at hother
    simp [hopen, hother.1, hother.2.1, hother.2.2.1]
  · simp only [hopen, if_false]
    split_ifs <;> rfl

/-- An OPEN line cut in two, with body bytes in the same chunk and in a later
one. -/
example : receiveAll (fun frames => frames.getLast?.map Frame.verb == some (js "OPEN"))
      [utf8Bytes (js "PRE:OK\nOP"), utf8Bytes (js "EN 80\nGET"), utf8Bytes (js " /\n")] =
    { buffer := utf8Bytes (js "GET"), detached := true
      calls := [(⟨js "PRE:OK", []⟩, utf8Bytes (js "OP")),
        (⟨js "OPEN", [js "80"]⟩, utf8Bytes (js "GET"))]
      later := [utf8Bytes (js " /\n")] } := by
  decide +kernel

end OpticsAgent.Tunnel
