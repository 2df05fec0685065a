import Mathlib
import OpticsAgent.Tunnel.PoolRefill
import OpticsAgent.Tunnel.Segmentation

/-!
The bytes the pool has read from a connection. Whatever the other connections,
the timers and the registrations do in between, what was read is complete lines
and an open one until the first OPEN line, and what is behind that line is handed
to the local service.
-/

namespace OpticsAgent.Tunnel

open OpticsAgent.Ecma OpticsAgent.Node OpticsAgent.Utility OpticsAgent.Lib

/-- What the reader keeps of a connection. -/
def Connection.stream (k : Connection) : List Byte × Bool × Option (ℤ × List Byte) :=
  (k.buffer, k.detached, k.piped)

/-- Complete lines, each with its newline. -/
def joined (lines : List (List Byte)) : List Byte := lines.flatMap fun line => line ++ [10]

/-- Lines of the protocol before the OPEN line. -/
def Unopened (lines : List (List Byte)) : Prop :=
  ∀ line ∈ lines, (∀ b ∈ line, isNewline b = false) ∧ (parseFrame line).verb ≠ js "OPEN"

/-- `rest` is behind the first OPEN line, whose arguments are `args`. -/
def OpenedWith (read : List Byte) (args : List JsString) (rest : List Byte) : Prop :=
  ∃ lines line, Unopened lines ∧ (∀ b ∈ line, isNewline b = false) ∧
    parseFrame line = ⟨js "OPEN", args⟩ ∧ read = joined lines ++ (line ++ 10 :: rest)

@[simp] theorem joined_nil : joined [] = [] := rfl

@[simp] theorem joined_append (front back : List (List Byte)) :
    joined (front ++ back) = joined front ++ joined back :=
  List.flatMap_append

theorem joined_cons (line : List Byte) (lines : List (List Byte)) :
    joined (line :: lines) = line ++ 10 :: joined lines := by
  rw [joined, List.flatMap_cons, List.append_assoc]
  rfl

theorem Unopened.append {front back : List (List Byte)} (hfront : Unopened front)
    (hback : Unopened back) : Unopened (front ++ back) := by
  intro line hline
  rcases List.mem_append.mp hline with hline | hline
  · exact hfront line hline
  · exact hback line hline

theorem OpenedWith.append {read : List Byte} {args : List JsString} {rest : List Byte}
    (h : OpenedWith read args rest) (later : List Byte) :
    OpenedWith (read ++ later) args (rest ++ later) := by
  obtain ⟨lines, line, hlines, hclean, hparse, rfl⟩ := h
  exact ⟨lines, line, hlines, hclean, hparse, by simp⟩

theorem OpenedWith.joined_append {read : List Byte} {args : List JsString} {rest : List Byte}
    {lines : List (List Byte)} (hlines : Unopened lines) (h : OpenedWith read args rest) :
    OpenedWith (joined lines ++ read) args rest := by
  obtain ⟨more, line, hmore, hclean, hparse, rfl⟩ := h
  refine ⟨lines ++ more, line, hlines.append hmore, hclean, hparse, ?_⟩
  rw [Tunnel.joined_append, List.append_assoc]

theorem framesOf_joined {lines : List (List Byte)} (hlines : Unopened lines) (rest : List Byte) :
    framesOf (joined lines ++ rest) = lines.map parseFrame ++ framesOf rest := by
  rw [framesOf, joined, (lines_flatMap_mark rfl (fun line hline => (hlines line hline).1) rest).1,
    List.map_append]
  rfl

/-- The first OPEN line among the frames. -/
def firstOpen (read : List Byte) : Option Frame :=
  (framesOf read).find? fun frame => frame.verb = js "OPEN"

theorem firstOpen_joined {lines : List (List Byte)} (hlines : Unopened lines) (rest : List Byte) :
    firstOpen (joined lines ++ rest) = firstOpen rest := by
  have hnone : (lines.map parseFrame).find? (fun frame => frame.verb = js "OPEN") = none := by
    rw [List.find?_eq_none]
    intro frame hframe
    obtain ⟨line, hline, rfl⟩ := List.mem_map.mp hframe
    simpa using (hlines line hline).2
  rw [firstOpen, framesOf_joined hlines, List.find?_append, hnone, Option.none_or, firstOpen]

/-- The arguments are those of the first OPEN line. -/
theorem OpenedWith.firstOpen {read : List Byte} {args : List JsString} {rest : List Byte}
    (h : OpenedWith read args rest) : firstOpen read = some ⟨js "OPEN", args⟩ := by
  obtain ⟨lines, line, hlines, hclean, hparse, rfl⟩ := h
  rw [firstOpen_joined hlines, Tunnel.firstOpen, framesOf, completeLines_line hclean rfl,
    List.map_cons, hparse]
  exact List.find?_cons_of_pos (by simp)

theorem firstOpen_of_takeLine {buffer : List Byte} (h : takeLine buffer = none) :
    firstOpen buffer = none := by
  rw [firstOpen, framesOf, takeLine_none h]
  rfl

namespace State

/-! ## What leaves the streams alone -/

/-- Nothing was read from a connection that is not created yet. -/
def Fresh (s : State) : Prop :=
  ∀ c, s.created ≤ c → (s.connections c).stream = Connection.stream {}

/-- Nothing is read, detached or piped. -/
def SameStreams (s s' : State) : Prop :=
  s.Fresh → s.created ≤ s'.created ∧ ∀ c, (s'.connections c).stream = (s.connections c).stream

theorem SameStreams.fresh {s s' : State} (h : SameStreams s s') (hs : s.Fresh) : s'.Fresh := by
  obtain ⟨hcreated, hsame⟩ := h hs
  intro c hc
  rw [hsame, hs c (hcreated.trans hc)]

theorem SameStreams.refl (s : State) : SameStreams s s := fun _ => ⟨le_refl _, fun _ => rfl⟩

theorem SameStreams.trans {s t u : State} (h : SameStreams s t) (h' : SameStreams t u) :
    SameStreams s u := by
  intro hs
  obtain ⟨hcreated, hsame⟩ := h hs
  obtain ⟨hcreated', hsame'⟩ := h' (h.fresh hs)
  exact ⟨hcreated.trans hcreated', fun c => (hsame' c).trans (hsame c)⟩

theorem sameStreams_of_connections {s s' : State} (hcreated : s'.created = s.created)
    (hconnections : s'.connections = s.connections) : SameStreams s s' :=
  fun _ => ⟨hcreated.ge, fun c => by rw [hconnections]⟩

theorem sameStreams_updateConnection (s : State) (c : ℕ) {f : Connection → Connection}
    (hf : ∀ k, (f k).stream = k.stream) : SameStreams s (s.updateConnection c f) := by
  refine fun _ => ⟨le_refl _, fun d => ?_⟩
  rcases eq_or_ne d c with rfl | hne
  · rw [connections_updateConnection_self, hf]
  · rw [connections_updateConnection_of_ne s c d f hne]

theorem sameStreams_destroy (s : State) (c : ℕ) : SameStreams s (s.destroy c) :=
  sameStreams_updateConnection s c fun _ => rfl

theorem sameStreams_markUnhealthy (s : State) (c : ℕ) : SameStreams s (s.markUnhealthy c) :=
  sameStreams_updateConnection s c fun _ => rfl

theorem sameStreams_write (s : State) (c : ℕ) (text : JsString) :
    SameStreams s (s.write c text) := by
  refine sameStreams_updateConnection s c fun k => ?_
  split_ifs
  · rfl
  · rfl

theorem sameStreams_settle (s : State) (c : ℕ) : SameStreams s (s.settle c) := by
  rw [settle]
  split_ifs
  · exact SameStreams.refl s
  · exact (sameStreams_updateConnection s c (f := fun k => { k with settled := true })
      fun _ => rfl).trans (sameStreams_of_connections rfl rfl)

theorem sameStreams_preconnect (s : State) : SameStreams s s.preconnect := by
  refine fun hs => ⟨Nat.le_succ _, fun c => ?_⟩
  rcases eq_or_ne c s.created with rfl | hne
  · have hblank : s.preconnect.connections s.created = {} := Function.update_self _ _ _
    rw [hblank, hs _ (le_refl _)]
  · have hsame : s.preconnect.connections c = s.connections c := Function.update_of_ne hne _ _
    rw [hsame]

theorem sameStreams_formPreconnectPool (s : State) : SameStreams s s.formPreconnectPool :=
  formPreconnectPool_induction (P := SameStreams s)
    (fun t ht _ => ht.trans (sameStreams_preconnect t)) (SameStreams.refl s)

theorem sameStreams_scheduleRefill (s : State) : SameStreams s s.scheduleRefill := by
  rw [scheduleRefill]
  split_ifs
  · exact SameStreams.refl s
  · exact sameStreams_of_connections rfl rfl

theorem sameStreams_initPreconnectPool (s : State) (agentUuid secret : Option JsString) :
    SameStreams s (s.initPreconnectPool agentUuid secret) := by
  have hfilled (named : State) (hnamed : SameStreams s named) :
      SameStreams s (cancelRefill { named with
        suspended := false
        consecutiveFailures := 0 }).formPreconnectPool := by
    have hcleared : SameStreams named
        (cancelRefill { named with suspended := false, consecutiveFailures := 0 }) :=
      sameStreams_of_connections rfl rfl
    exact (hnamed.trans hcleared).trans (sameStreams_formPreconnectPool _)
  unfold State.initPreconnectPool
  cases truthy agentUuid with
  | none => exact SameStreams.refl s
  | some uuid =>
      have hnamed : SameStreams s { s with agentUuid := some uuid } :=
        sameStreams_of_connections rfl rfl
      dsimp only
      split_ifs
      · exact hfilled _ hnamed
      · exact hnamed

theorem sameStreams_onConnect (s : State) (c : ℕ) (secret : Option JsString) (timestamp : Number)
    (nonce : JsString) : SameStreams s (s.onConnect c secret timestamp nonce) := by
  let cleared := (s.clearTimer (.connectDeadline c)).forgetTimer (.connectDeadline c)
  have hcleared : SameStreams s cleared := sameStreams_of_connections rfl rfl
  let connected := cleared.updateConnection c fun k => { k with connected := true }
  have hconnected : SameStreams s connected :=
    hcleared.trans (sameStreams_updateConnection cleared c fun _ => rfl)
  cases secret with
  | none => exact hconnected
  | some key =>
      change SameStreams s ((connected.write c _).startTimer (.ackDeadline c) ackTimeoutMs)
      exact (hconnected.trans (sameStreams_write connected c _)).trans
        (sameStreams_of_connections rfl rfl)

theorem sameStreams_onClose (s : State) (c : ℕ) : SameStreams s (s.onClose c) := by
  let gone := s.updateConnection c fun k => { k with closed := true }
  let cleared :=
    ((gone.clearTimer (.connectDeadline c)).clearTimer (.ackDeadline c)).stopHeartbeat c
  have hgone : SameStreams s gone := sameStreams_updateConnection s c fun _ => rfl
  have hremoved : SameStreams s { cleared with pool := cleared.pool.erase c } :=
    hgone.trans (sameStreams_of_connections rfl rfl)
  let removed : State := { cleared with pool := cleared.pool.erase c }
  change SameStreams s (if !(s.connections c).settled then (removed.settle c).scheduleRefill
    else if c ∉ s.pool then removed
    else if (s.connections c).unhealthy then removed.scheduleRefill
    else removed.formPreconnectPool)
  split_ifs with hunsettled hpooled hunhealthy
  · exact (hremoved.trans (sameStreams_settle _ c)).trans (sameStreams_scheduleRefill _)
  · exact hremoved.trans (sameStreams_scheduleRefill removed)
  · exact hremoved.trans (sameStreams_formPreconnectPool removed)
  · exact hremoved

theorem sameStreams_onTimer (s : State) (callback : Callback) :
    SameStreams s (s.onTimer callback) := by
  have hforget (other : Callback) : SameStreams s (s.forgetTimer other) :=
    sameStreams_of_connections rfl rfl
  cases callback with
  | connectDeadline c =>
      exact ((hforget _).trans (sameStreams_markUnhealthy _ c)).trans (sameStreams_destroy _ c)
  | ackDeadline c => exact sameStreams_destroy s c
  | heartbeat c =>
      rw [onTimer]
      split_ifs
      · exact SameStreams.refl s
      · exact (sameStreams_write s c _).trans (sameStreams_of_connections rfl rfl)
  | pongDeadline c => exact (sameStreams_markUnhealthy s c).trans (sameStreams_destroy _ c)
  | refill => exact (hforget _).trans (sameStreams_formPreconnectPool _)

theorem sameStreams_fire (s : State) (t : Timer Callback) : SameStreams s (s.fire t) := by
  have hexpired : SameStreams s (s.expire t.id) := sameStreams_of_connections rfl rfl
  rw [fire]
  split_ifs
  · exact sameStreams_onTimer s t.key
  · exact hexpired.trans (sameStreams_onTimer _ t.key)

/-! ## Frames -/

theorem sameStreams_onPreOk (s : State) (c : ℕ) : SameStreams s (s.onPreOk c) := by
  let settled := (s.clearTimer (.ackDeadline c)).settle c
  have hcleared : SameStreams s (s.clearTimer (.ackDeadline c)) :=
    sameStreams_of_connections rfl rfl
  have hpooled : SameStreams s
      (startHeartbeat { settled with pool := insert c settled.pool } c) :=
    (hcleared.trans (sameStreams_settle _ c)).trans (sameStreams_of_connections rfl rfl)
  have hformed := hpooled.trans (sameStreams_formPreconnectPool _)
  rw [onPreOk]
  split_ifs
  · exact hformed.trans (sameStreams_of_connections rfl rfl)
  · exact hformed

theorem sameStreams_onPreErr (s : State) (c : ℕ) (args : List JsString) :
    SameStreams s (s.onPreErr c args) := by
  have hrejected {t : State} (ht : SameStreams s t) : SameStreams s ((t.settle c).destroy c) :=
    (ht.trans (sameStreams_settle t c)).trans (sameStreams_destroy _ c)
  rw [onPreErr]
  refine hrejected ?_
  split_ifs
  · exact sameStreams_of_connections rfl rfl
  · exact sameStreams_of_connections rfl rfl

theorem sameStreams_onFrame {s : State} {c : ℕ} {frame : Frame} (rest : List Byte)
    (h : frame.verb ≠ js "OPEN") : SameStreams s (s.onFrame c frame rest).1 := by
  rw [onFrame]
  split_ifs with hok herr hpong
  · exact sameStreams_onPreOk s c
  · exact sameStreams_onPreErr s c frame.args
  · exact sameStreams_of_connections rfl rfl
  · exact SameStreams.refl s

/-- After an OPEN line of `c` that `rest` was behind. -/
structure Opened (c : ℕ) (args : List JsString) (rest : List Byte) (s s' : State) : Prop where
  created : s.created ≤ s'.created
  others : ∀ d, d ≠ c → (s'.connections d).stream = (s.connections d).stream
  buffer : (s'.connections c).buffer = (s.connections c).buffer
  detached : (s'.connections c).detached = true
  piped : (s'.connections c).piped = (targetPort? args).map fun port => (port, rest)

theorem Opened.of_sameStreams {c : ℕ} {args : List JsString} {rest : List Byte} {s t s' : State}
    (h : Opened c args rest t s') (hcreated : s.created ≤ t.created)
    (hsame : ∀ d, (t.connections d).stream = (s.connections d).stream) :
    Opened c args rest s s' where
  created := hcreated.trans h.created
  others d hne := (h.others d hne).trans (hsame d)
  buffer := h.buffer.trans (congrArg Prod.fst (hsame c))
  detached := h.detached
  piped := h.piped

theorem opened_onOpen {s : State} {c : ℕ} (args : List JsString) (rest : List Byte)
    (hs : s.Fresh) (hc : c < s.created) (hnone : (s.connections c).piped = none) :
    Opened c args rest s (s.onOpen c args rest) := by
  let detached := s.updateConnection c fun k => { k with detached := true }
  let stopped := detached.stopHeartbeat c
  let removed : State := { stopped with pool := stopped.pool.erase c }
  let consumed := removed.formPreconnectPool
  have hfresh : detached.Fresh := by
    intro d hd
    have hne : d ≠ c := (hc.trans_le hd).ne'
    rw [connections_updateConnection_of_ne s c d _ hne]
    exact hs d hd
  have hremoved : SameStreams detached removed := sameStreams_of_connections rfl rfl
  have hconsumed : SameStreams detached consumed :=
    hremoved.trans (sameStreams_formPreconnectPool removed)
  obtain ⟨hcreated, hsame⟩ := hconsumed hfresh
  have hother (d : ℕ) (hne : d ≠ c) :
      (consumed.connections d).stream = (s.connections d).stream := by
    rw [hsame, connections_updateConnection_of_ne s c d _ hne]
  have hself : (consumed.connections c).stream =
      ((s.connections c).buffer, true, (s.connections c).piped) := by
    rw [hsame, connections_updateConnection_self]
    rfl
  simp only [Connection.stream, Prod.mk.injEq] at hself
  obtain ⟨hbuffer, hdetached, hpiped⟩ := hself
  have hlast {f : Connection → Connection} (hkeeps : ∀ k, (f k).buffer = k.buffer)
      (hstays : ∀ k, (f k).detached = k.detached)
      (hhands : (f (consumed.connections c)).piped =
        (targetPort? args).map fun port => (port, rest)) :
      Opened c args rest s (consumed.updateConnection c f) := by
    refine ⟨hcreated, fun d hne => ?_, ?_, ?_, ?_⟩
    · rw [connections_updateConnection_of_ne consumed c d f hne, hother d hne]
    · rw [connections_updateConnection_self, hkeeps, hbuffer]
    · rw [connections_updateConnection_self, hstays, hdetached]
    · rw [connections_updateConnection_self, hhands]
  change Opened c args rest s (consumed.pipeToLocalService c args rest)
  rw [pipeToLocalService]
  cases hport : targetPort? args with
  | none =>
      refine hlast (fun _ => rfl) (fun _ => rfl) ?_
      rw [hport, hpiped, hnone, Option.map_none]
  | some port =>
      refine hlast (fun _ => rfl) (fun _ => rfl) ?_
      rw [hport, Option.map_some]

theorem onFrame_of_open {c : ℕ} {frame : Frame} (h : frame.verb = js "OPEN") (rest : List Byte)
    (s : State) : s.onFrame c frame rest = (s.onOpen c frame.args rest, true) := by
  have hother : ∀ verb ∈ [js "PRE:OK", js "PRE:ERR", js "PONG"], js "OPEN" ≠ verb := by decide
  simp only [List.forall_mem_cons] at hother
  simp [onFrame, h, hother.1, hother.2.1, hother.2.2.1]

/-- What one `data` event does to the streams. -/
structure ReadOn (c : ℕ) (buffer : List Byte) (s : State) (result : State × List Byte × Bool) :
    Prop where
  kept : result.2.2 = false → SameStreams s result.1 ∧
    ∃ lines, Unopened lines ∧ buffer = joined lines ++ result.2.1
  opened : result.2.2 = true → ∃ args, OpenedWith buffer args result.2.1 ∧
    Opened c args result.2.1 s result.1

theorem readOn_drain {c : ℕ} (fuel : ℕ) {buffer : List Byte} {s : State} (hs : s.Fresh)
    (hc : c < s.created) (hnone : (s.connections c).piped = none) :
    ReadOn c buffer s (drain (onFrame c) fuel buffer s) := by
  induction fuel generalizing buffer s with
  | zero =>
      refine ⟨fun _ => ⟨SameStreams.refl s, [], by simp [Unopened], rfl⟩, fun hstop => ?_⟩
      cases hstop
  | succ fuel ih =>
      unfold drain
      cases hline : takeLine buffer with
      | none =>
          refine ⟨fun _ => ⟨SameStreams.refl s, [], by simp [Unopened], rfl⟩, fun hstop => ?_⟩
          cases hstop
      | some p =>
          obtain ⟨line, rest⟩ := p
          obtain ⟨rfl, hclean⟩ := takeLine_some hline
          by_cases hopen : (parseFrame line).verb = js "OPEN"
          · simp only [onFrame_of_open hopen]
            refine ⟨fun hkept => ?_, fun _ => ⟨(parseFrame line).args, ?_, ?_⟩⟩
            · cases hkept
            · refine ⟨[], line, by simp [Unopened], hclean, ?_, rfl⟩
              rw [← hopen]
            · exact opened_onOpen _ _ hs hc hnone
          · have hsame := sameStreams_onFrame (s := s) (c := c) rest hopen
            obtain ⟨hcreated, hstreams⟩ := hsame hs
            have hstop := onFrame_detaches c (parseFrame line) rest s
            have hskipped : Unopened [line] := fun l hl => by
              rw [List.mem_singleton.mp hl]
              exact ⟨hclean, hopen⟩
            cases hhandle : onFrame c (parseFrame line) rest s with
            | mk t stop =>
                rw [hhandle] at hsame hcreated hstreams hstop
                obtain rfl : stop = false := hstop.trans (decide_eq_false hopen)
                have hstill : (t.connections c).piped = none :=
                  (congrArg (fun k => k.2.2) (hstreams c)).trans hnone
                have hrest := @ih rest t (hsame.fresh hs) (hc.trans_le hcreated) hstill
                simp only [hhandle]
                refine ⟨fun hkept => ?_, fun hgone => ?_⟩
                · obtain ⟨hlater, lines, hlines, hbuffer⟩ := hrest.kept hkept
                  refine ⟨hsame.trans hlater, line :: lines, hskipped.append hlines, ?_⟩
                  rw [joined_cons, List.append_assoc, List.cons_append]
                  exact congrArg (fun b => line ++ 10 :: b) hbuffer
                · obtain ⟨args, hopened, hafter⟩ := hrest.opened hgone
                  have hwhole := hopened.joined_append hskipped
                  rw [joined_cons, joined_nil, List.append_assoc, List.singleton_append] at hwhole
                  exact ⟨args, hwhole, hafter.of_sameStreams hcreated hstreams⟩

end State

/-! ## Runs -/

/-- What was read from a connection, and where its reader stands. -/
structure Heard (read : List Byte) (k : Connection) : Prop where
  reading : k.detached = false → k.piped = none ∧ takeLine k.buffer = none ∧
    ∃ lines, Unopened lines ∧ read = joined lines ++ k.buffer
  opened : k.detached = true → ∃ args rest, OpenedWith read args rest ∧
    k.piped = (State.targetPort? args).map fun port => (port, rest)

def readAfter (read : ℕ → List Byte) : Event → ℕ → List Byte
  | .data c chunk => Function.update read c (read c ++ chunk)
  | _ => read

/-- Every connection, the ones not created yet included. -/
structure AllHeard (s : State) (read : ℕ → List Byte) : Prop where
  fresh : s.Fresh
  heard : ∀ c, Heard (read c) (s.connections c)

theorem Heard.of_stream {read : List Byte} {k k' : Connection} (h : Heard read k)
    (hsame : k'.stream = k.stream) : Heard read k' := by
  simp only [Connection.stream, Prod.mk.injEq] at hsame
  obtain ⟨hbuffer, hdetached, hpiped⟩ := hsame
  refine ⟨fun hreading => ?_, fun hgone => ?_⟩
  · rw [hpiped, hbuffer]
    exact h.reading (hdetached ▸ hreading)
  · rw [hpiped]
    exact h.opened (hdetached ▸ hgone)

theorem AllHeard.of_sameStreams {s s' : State} {read : ℕ → List Byte} (h : AllHeard s read)
    (hsame : s.SameStreams s') : AllHeard s' read :=
  ⟨hsame.fresh h.fresh, fun c => (h.heard c).of_stream ((hsame h.fresh).2 c)⟩

theorem Heard.read {read : List Byte} {s : State} {c : ℕ}
    (h : Heard read (s.connections c)) (hs : s.Fresh) (hc : c < s.created)
    (hreading : (s.connections c).detached = false) (chunk : List Byte) :
    Heard (read ++ chunk) ((s.onSocketData c chunk).connections c) ∧
      s.created ≤ (s.onSocketData c chunk).created ∧
      ∀ d, d ≠ c → ((s.onSocketData c chunk).connections d).stream = (s.connections d).stream := by
  obtain ⟨hnone, -, lines, hlines, hread⟩ := h.reading hreading
  obtain ⟨result, hresult⟩ : ∃ result, result =
    onData (State.onFrame c) (s.connections c).buffer chunk s := ⟨_, rfl⟩
  have hdrained : State.ReadOn c ((s.connections c).buffer ++ chunk) s result :=
    hresult ▸ State.readOn_drain _ hs hc hnone
  have hfinal : s.onSocketData c chunk =
      result.1.updateConnection c fun k => { k with buffer := result.2.1 } := by
    rw [State.onSocketData, hresult]
  rw [hfinal]
  have hself := State.connections_updateConnection_self result.1 c
    fun k => { k with buffer := result.2.1 }
  have hothers (d : ℕ) (hne : d ≠ c) := State.connections_updateConnection_of_ne result.1 c d
    (fun k => { k with buffer := result.2.1 }) hne
  rw [hself]
  cases hstop : result.2.2 with
  | false =>
      obtain ⟨hsame, more, hmore, hbuffer⟩ := hdrained.kept hstop
      obtain ⟨hcreated, hstreams⟩ := hsame hs
      have hstill := hstreams c
      simp only [Connection.stream, Prod.mk.injEq] at hstill
      obtain ⟨-, hdetached, hpiped⟩ := hstill
      have hopenLine : takeLine result.2.1 = none := by
        rw [hresult] at hstop ⊢
        exact takeLine_drain (le_refl _) hstop
      refine ⟨⟨fun _ => ⟨hpiped.trans hnone, hopenLine, lines ++ more, hlines.append hmore, ?_⟩,
        fun hgone => ?_⟩, hcreated, fun d hne => ?_⟩
      · rw [hread, List.append_assoc, hbuffer, joined_append, List.append_assoc]
      · cases (hdetached.trans hreading).symm.trans hgone
      · rw [hothers d hne, hstreams d]
  | true =>
      obtain ⟨args, hopened, hafter⟩ := hdrained.opened hstop
      refine ⟨⟨fun hstill => ?_, fun _ => ⟨args, result.2.1, ?_, hafter.piped⟩⟩, hafter.created,
        fun d hne => ?_⟩
      · cases hafter.detached.symm.trans hstill
      · rw [hread, List.append_assoc]
        exact hopened.joined_append hlines
      · rw [hothers d hne, hafter.others d hne]

theorem AllHeard.step {s s' : State} {read : ℕ → List Byte} {event : Event}
    (h : AllHeard s read) (hstep : Transition s event s') : AllHeard s' (readAfter read event) := by
  cases hstep with
  | init agentUuid secret => exact h.of_sameStreams (State.sameStreams_initPreconnectPool s _ _)
  | connect c secret timestamp nonce =>
      exact h.of_sameStreams (State.sameStreams_onConnect s c _ _ _)
  | data c chunk hcreated hconnected hintact halive hreading =>
      obtain ⟨hheard, hmore, hothers⟩ := (h.heard c).read h.fresh hcreated hreading chunk
      refine ⟨fun d hd => ?_, fun d => ?_⟩
      · have hd := hmore.trans hd
        rw [hothers d (hcreated.trans_le hd).ne', h.fresh d hd]
      · rw [readAfter]
        rcases eq_or_ne d c with rfl | hne
        · rw [Function.update_self]
          exact hheard
        · rw [Function.update_of_ne hne]
          exact (h.heard d).of_stream (hothers d hne)
  | error c => exact h.of_sameStreams (State.sameStreams_markUnhealthy s c)
  | close c => exact h.of_sameStreams (State.sameStreams_onClose s c)
  | timer t => exact h.of_sameStreams (State.sameStreams_fire s t)

theorem allHeard_start : AllHeard start fun _ => [] := by
  have hnothing : Unopened [] := by simp [Unopened]
  refine ⟨fun c _ => rfl, fun c => ⟨fun _ => ⟨rfl, rfl, [], hnothing, rfl⟩, fun hgone => ?_⟩⟩
  cases hgone

/-- A connection is piped exactly when its first OPEN line names a valid port. -/
theorem Heard.piped_isSome_iff {read : List Byte} {k : Connection} (h : Heard read k) :
    k.piped.isSome = true ↔
      ∃ frame, firstOpen read = some frame ∧ (State.targetPort? frame.args).isSome = true := by
  cases hdetached : k.detached with
  | false =>
      obtain ⟨hnone, hopenLine, lines, hlines, rfl⟩ := h.reading hdetached
      rw [hnone, firstOpen_joined hlines, firstOpen_of_takeLine hopenLine]
      simp
  | true =>
      obtain ⟨args, rest, hopened, hpiped⟩ := h.opened hdetached
      rw [hpiped, hopened.firstOpen, Option.isSome_map]
      simp

/-- Once a connection is piped it stays piped to the same port. -/
theorem AllHeard.piped_step {s s' : State} {read : ℕ → List Byte} {event : Event}
    (h : AllHeard s read) (hstep : Transition s event s') (c : ℕ) :
    (s.connections c).piped = none ∨ (s'.connections c).piped = (s.connections c).piped := by
  have hsame (hstreams : s.SameStreams s') :
      (s'.connections c).piped = (s.connections c).piped :=
    congrArg (fun k => k.2.2) ((hstreams h.fresh).2 c)
  cases hstep with
  | init agentUuid secret => exact .inr (hsame (State.sameStreams_initPreconnectPool s _ _))
  | connect c secret timestamp nonce => exact .inr (hsame (State.sameStreams_onConnect s c _ _ _))
  | data d chunk hcreated hconnected hintact halive hreading =>
      rcases eq_or_ne c d with rfl | hne
      · exact .inl ((h.heard c).reading hreading).1
      · obtain ⟨-, -, hothers⟩ := (h.heard d).read h.fresh hcreated hreading chunk
        exact .inr (congrArg (fun k => k.2.2) (hothers c hne))
  | error c => exact .inr (hsame (State.sameStreams_markUnhealthy s c))
  | close c => exact .inr (hsame (State.sameStreams_onClose s c))
  | timer t => exact .inr (hsame (State.sameStreams_fire s t))

end OpticsAgent.Tunnel
