import Mathlib
import OpticsAgent.Lib.Pipe
import OpticsAgent.Tunnel.ReadBytes

/-!
The two sockets of a tunnel and the pipes between them. A connection of the pool
is bridged to the local service once its OPEN line was read, and the bytes behind
that line are written first; `open` bridges a connection of its own and sends the
token first. Node hands over what a socket received in order, and a socket that
ended or closed takes nothing more.
-/

namespace OpticsAgent.Tunnel

open OpticsAgent.Ecma OpticsAgent.Node OpticsAgent.Lib

/-- `down` leads from the tunnel to the local service and `up` back. -/
structure Bridge where
  /-- What was written to the tunnel before it was piped. -/
  preface : List Byte := []
  /-- What is written to the local service before the tunnel is piped to it. -/
  pending : List Byte := []
  greeted : Bool := false
  piping : Bool := false
  down : Pipe Byte := .empty
  up : Pipe Byte := .empty
  tunnelDone : Bool := false
  localDone : Bool := false
  /-- The tunnel's stream was piped to its end. -/
  delivered : Bool := false
  /-- The local service's stream was piped to its end. -/
  answered : Bool := false

inductive BridgeEvent where
  | tunnelData (chunk : List Byte)
  | tunnelEnd
  | tunnelClose
  | localConnect
  | localData (chunk : List Byte)
  | localEnd
  | localClose
  /-- Node passes the next `n` bytes on. -/
  | passDown (n : ℕ)
  | passUp (n : ℕ)

/-- The bytes an event brings from the tunnel. -/
def BridgeEvent.brings : BridgeEvent → List Byte
  | .tunnelData chunk => chunk
  | _ => []

namespace Bridge

/-- What was written to the local socket. -/
def toLocal (b : Bridge) : List Byte := (if b.greeted then b.pending else []) ++ b.down.out

/-- What was written to the tunnel socket. -/
def toTunnel (b : Bridge) : List Byte := b.preface ++ b.up.out

/-- What the tunnel brought for the local service. -/
def fromTunnel (b : Bridge) : List Byte := b.pending ++ b.down.fed

/-- `pipeToLocalService`. -/
def ofPending (pending : List Byte) : Bridge := { pending := pending }

/-- `open` pipes both sockets at once; what is written before they are connected
waits in them. -/
def ofToken (token : JsString) : Bridge :=
  { preface := utf8Bytes (token ++ [10]), greeted := true, piping := true }

/-- No socket takes anything any more. -/
def shutDown (b : Bridge) : Bridge := { b with down := b.down.close, up := b.up.close }

/-- A socket ends when everything it received was read; then `pipe` ends the other
one, and Node its own writing side. -/
def step (b : Bridge) : BridgeEvent → Option Bridge
  | .tunnelData chunk => if b.tunnelDone then none else some { b with down := b.down.feed chunk }
  | .tunnelEnd =>
      if b.piping ∧ !b.tunnelDone ∧ b.down.queue = [] then
        some { b.shutDown with tunnelDone := true, delivered := !b.down.shut }
      else none
  | .tunnelClose => some { b.shutDown with tunnelDone := true }
  | .localConnect =>
      if !b.piping ∧ !b.localDone then some { b with piping := true, greeted := !b.down.shut }
      else none
  | .localData chunk =>
      if b.piping ∧ !b.localDone then some { b with up := b.up.feed chunk } else none
  | .localEnd =>
      if b.piping ∧ !b.localDone ∧ b.up.queue = [] then
        some { b.shutDown with localDone := true, answered := !b.up.shut }
      else none
  | .localClose => some { b.shutDown with localDone := true }
  | .passDown n => if b.piping then some { b with down := b.down.pass n } else none
  | .passUp n => if b.piping then some { b with up := b.up.pass n } else none

/-- Nothing passes a bridge that has not greeted, and what was delivered is all
there was. -/
structure Sound (b : Bridge) : Prop where
  unpiped : b.piping = false → b.greeted = false
  quiet : b.greeted = false → b.down.out = []
  greets : b.piping = true → b.down.shut = false → b.greeted = true
  delivered : b.delivered = true →
    b.greeted = true ∧ b.tunnelDone = true ∧ b.down.shut = true ∧ b.down.out = b.down.fed
  answered : b.answered = true → b.localDone = true ∧ b.up.shut = true ∧ b.up.out = b.up.fed

theorem sound_ofPending (pending : List Byte) : (ofPending pending).Sound := by
  refine ⟨fun _ => rfl, fun _ => rfl, fun h => ?_, fun h => ?_, fun h => ?_⟩
  · cases h
  · cases h
  · cases h

theorem sound_ofToken (token : JsString) : (ofToken token).Sound := by
  refine ⟨fun h => ?_, fun _ => rfl, fun _ _ => rfl, fun h => ?_, fun h => ?_⟩
  · cases h
  · cases h
  · cases h

theorem Sound.shutDown {b : Bridge} (hb : b.Sound) : b.shutDown.Sound where
  unpiped := hb.unpiped
  quiet := hb.quiet
  greets _ hopen := by cases hopen
  delivered h := by
    obtain ⟨hgreeted, hdone, -, hall⟩ := hb.delivered h
    exact ⟨hgreeted, hdone, rfl, hall⟩
  answered h := by
    obtain ⟨hdone, -, hall⟩ := hb.answered h
    exact ⟨hdone, rfl, hall⟩

theorem Sound.step {b b' : Bridge} {event : BridgeEvent} (hb : b.Sound)
    (hstep : b.step event = some b') :
    b'.Sound ∧ b'.pending = b.pending ∧ b'.preface = b.preface := by
  cases event with
  | tunnelData chunk =>
      simp only [Bridge.step, Option.ite_none_left_eq_some, Option.some.injEq] at hstep
      obtain ⟨hreading, rfl⟩ := hstep
      refine ⟨⟨hb.unpiped, hb.quiet, hb.greets, fun h => ?_, hb.answered⟩, rfl, rfl⟩
      exact absurd (hb.delivered h).2.1 hreading
  | tunnelEnd =>
      simp only [Bridge.step, Option.ite_none_right_eq_some, Option.some.injEq] at hstep
      obtain ⟨⟨hpiping, -, hempty⟩, rfl⟩ := hstep
      have hshut := hb.shutDown
      refine ⟨⟨hshut.unpiped, hshut.quiet, hshut.greets, fun h => ?_, hshut.answered⟩, rfl, rfl⟩
      have hopen : b.down.shut = false := by simpa using h
      have hall : b.down.out = b.down.fed := Pipe.out_eq_fed hopen hempty
      exact ⟨hb.greets hpiping hopen, rfl, rfl, hall⟩
  | tunnelClose =>
      obtain rfl := Option.some.inj hstep
      have hshut := hb.shutDown
      refine ⟨⟨hshut.unpiped, hshut.quiet, hshut.greets, fun h => ?_, hshut.answered⟩, rfl, rfl⟩
      obtain ⟨hgreeted, -, hclosed, hall⟩ := hshut.delivered h
      exact ⟨hgreeted, rfl, hclosed, hall⟩
  | localConnect =>
      simp only [Bridge.step, Option.ite_none_right_eq_some, Option.some.injEq,
        Bool.not_eq_true'] at hstep
      obtain ⟨⟨hunpiped, -⟩, rfl⟩ := hstep
      have hsilent := hb.quiet (hb.unpiped hunpiped)
      refine ⟨⟨fun h => ?_, fun _ => hsilent, fun _ hopen => ?_, fun h => ?_, hb.answered⟩,
        rfl, rfl⟩
      · cases h
      · exact congrArg not hopen
      · exact absurd (hb.delivered h).1 (Bool.eq_false_iff.mp (hb.unpiped hunpiped))
  | localData chunk =>
      simp only [Bridge.step, Option.ite_none_right_eq_some, Option.some.injEq,
        Bool.not_eq_true'] at hstep
      obtain ⟨⟨-, hopen⟩, rfl⟩ := hstep
      refine ⟨⟨hb.unpiped, hb.quiet, hb.greets, hb.delivered, fun h => ?_⟩, rfl, rfl⟩
      cases (hb.answered h).1.symm.trans hopen
  | localEnd =>
      simp only [Bridge.step, Option.ite_none_right_eq_some, Option.some.injEq] at hstep
      obtain ⟨⟨-, -, hempty⟩, rfl⟩ := hstep
      have hshut := hb.shutDown
      refine ⟨⟨hshut.unpiped, hshut.quiet, hshut.greets, hshut.delivered, fun h => ?_⟩, rfl, rfl⟩
      have hopen : b.up.shut = false := by simpa using h
      have hall : b.up.out = b.up.fed := Pipe.out_eq_fed hopen hempty
      exact ⟨rfl, rfl, hall⟩
  | localClose =>
      obtain rfl := Option.some.inj hstep
      have hshut := hb.shutDown
      refine ⟨⟨hshut.unpiped, hshut.quiet, hshut.greets, hshut.delivered, fun h => ?_⟩, rfl, rfl⟩
      exact ⟨rfl, (hshut.answered h).2⟩
  | passDown n =>
      simp only [Bridge.step, Option.ite_none_right_eq_some, Option.some.injEq] at hstep
      obtain ⟨hpiping, rfl⟩ := hstep
      refine ⟨⟨hb.unpiped, fun hsilent => ?_, hb.greets, fun h => ?_, hb.answered⟩, rfl, rfl⟩
      · have hshut : b.down.shut = true := by
          by_contra hopen
          cases (hb.greets hpiping (Bool.eq_false_iff.mpr hopen)).symm.trans hsilent
        exact (Pipe.out_pass_of_shut hshut n).trans (hb.quiet hsilent)
      · obtain ⟨hgreeted, hdone, hshut, hall⟩ := hb.delivered h
        exact ⟨hgreeted, hdone, hshut, (Pipe.out_pass_of_shut hshut n).trans hall⟩
  | passUp n =>
      simp only [Bridge.step, Option.ite_none_right_eq_some, Option.some.injEq] at hstep
      obtain ⟨-, rfl⟩ := hstep
      refine ⟨⟨hb.unpiped, hb.quiet, hb.greets, hb.delivered, fun h => ?_⟩, rfl, rfl⟩
      obtain ⟨hdone, hshut, hall⟩ := hb.answered h
      exact ⟨hdone, hshut, (Pipe.out_pass_of_shut hshut n).trans hall⟩

theorem fed_step {b b' : Bridge} {event : BridgeEvent} (hstep : b.step event = some b') :
    b'.down.fed = b.down.fed ++ event.brings := by
  cases event with
  | tunnelData chunk =>
      simp only [Bridge.step, Option.ite_none_left_eq_some, Option.some.injEq] at hstep
      obtain ⟨-, rfl⟩ := hstep
      rfl
  | tunnelClose =>
      obtain rfl := Option.some.inj hstep
      exact (List.append_nil _).symm
  | localClose =>
      obtain rfl := Option.some.inj hstep
      exact (List.append_nil _).symm
  | _ =>
      simp only [Bridge.step, Option.ite_none_right_eq_some, Option.some.injEq] at hstep
      obtain ⟨-, rfl⟩ := hstep
      exact (List.append_nil _).symm

theorem Sound.toLocal_prefix {b : Bridge} (hb : b.Sound) : b.toLocal <+: b.fromTunnel := by
  rw [toLocal, fromTunnel]
  cases hgreeted : b.greeted with
  | false =>
      rw [hb.quiet hgreeted]
      exact List.nil_prefix
  | true => exact (List.prefix_append_right_inj b.pending).mpr b.down.inOrder

theorem Sound.toLocal_of_delivered {b : Bridge} (hb : b.Sound) (h : b.delivered = true) :
    b.toLocal = b.fromTunnel := by
  obtain ⟨hgreeted, -, -, hall⟩ := hb.delivered h
  rw [toLocal, fromTunnel, hgreeted, if_pos rfl, hall]

/-- The bridge of one `open`. -/
def machine : Machine Bridge BridgeEvent where
  step := step

/-- A bridge that `open` built. -/
structure OfToken (token : JsString) (b : Bridge) : Prop where
  sound : b.Sound
  pending : b.pending = []
  preface : b.preface = utf8Bytes (token ++ [10])

theorem OfToken.step {token : JsString} {b b' : Bridge} {event : BridgeEvent}
    (hb : OfToken token b) (hstep : machine.step b event = some b') : OfToken token b' := by
  obtain ⟨hsound, hpending, hpreface⟩ := hb.sound.step hstep
  exact ⟨hsound, hpending.trans hb.pending, hpreface.trans hb.preface⟩

/-- The token comes first, and what follows it is what the local service sent. -/
theorem run_ofToken {token : JsString} {events : List BridgeEvent} {b : Bridge}
    (hrun : machine.run (ofToken token) events = some b) :
    b.toLocal <+: b.down.fed ∧ b.toTunnel <+: utf8Bytes (token ++ [10]) ++ b.up.fed := by
  have hb : OfToken token b :=
    Machine.run_invariant (fun _ _ _ hs hstep => hs.step hstep)
      ⟨sound_ofToken token, rfl, rfl⟩ hrun
  refine ⟨?_, ?_⟩
  · have hcarried := hb.sound.toLocal_prefix
    rw [fromTunnel, hb.pending] at hcarried
    exact hcarried
  · rw [toTunnel, hb.preface]
    exact (List.prefix_append_right_inj _).mpr b.up.inOrder

end Bridge

/-! ## The pool and its bridges -/

structure Proxy where
  service : State := {}
  /-- What each connection of the pool received. -/
  received : ℕ → List Byte := fun _ => []
  bridges : ℕ → Option Bridge := fun _ => none

inductive ProxyEvent where
  | service (event : Event)
  | bridge (c : ℕ) (event : BridgeEvent)

namespace Proxy

/-- The bridges after a callback of the service: an OPEN line builds one, and the
close of a connection ends its own. -/
def bridgesAfter (bridges : ℕ → Option Bridge) (s : State) (event : Event) (c : ℕ) :
    Option Bridge :=
  match bridges c, event with
  | none, _ => (s.connections c).piped.map fun target => .ofPending target.2
  | some b, .close d => if d = c then b.step .tunnelClose else some b
  | some b, _ => some b

/-- The tunnel's own events come from the connection of the pool. -/
def comes (k : Connection) : BridgeEvent → Bool
  | .tunnelData _ => !k.destroyed && !k.closed
  | .tunnelEnd => !k.destroyed && !k.closed
  | .tunnelClose => false
  | _ => true

def step (p : Proxy) : ProxyEvent → Option Proxy
  | .service event => (Tunnel.step p.service event).map fun s =>
      { service := s
        received := readAfter p.received event
        bridges := bridgesAfter p.bridges s event }
  | .bridge c event =>
      if comes (p.service.connections c) event then
        ((p.bridges c).bind fun b => b.step event).map fun b =>
          { p with
            received := Function.update p.received c (p.received c ++ event.brings)
            bridges := Function.update p.bridges c (some b) }
      else none

/-! ### What every step keeps -/

/-- What came for the local service on a connection after it was bridged. -/
def laterBytes : Option Bridge → List Byte
  | none => []
  | some b => b.down.fed

/-- `read` is what the readers of the pool got. -/
structure Carries (read : ℕ → List Byte) (p : Proxy) : Prop where
  heard : AllHeard p.service read
  received : ∀ c, p.received c = read c ++ laterBytes (p.bridges c)
  unbridged : ∀ c, p.bridges c = none → (p.service.connections c).piped = none
  bridged : ∀ c b, p.bridges c = some b → b.Sound ∧ b.preface = [] ∧
    ∃ port, (p.service.connections c).piped = some (port, b.pending)

theorem bridgesAfter_of_none {bridges : ℕ → Option Bridge} {s : State} {event : Event} {c : ℕ}
    (h : bridges c = none) : bridgesAfter bridges s event c =
      (s.connections c).piped.map fun target => .ofPending target.2 := by
  simp only [bridgesAfter, h]

theorem bridgesAfter_of_some {bridges : ℕ → Option Bridge} {c : ℕ} {b : Bridge}
    (h : bridges c = some b) (s : State) (event : Event) : bridgesAfter bridges s event c = some b ∨
      bridgesAfter bridges s event c = b.step .tunnelClose := by
  cases event with
  | close d =>
      simp only [bridgesAfter, h]
      split_ifs
      · exact .inr rfl
      · exact .inl rfl
  | _ => exact .inl (by simp only [bridgesAfter, h])

/-- A callback of the service brings nothing that the local service would get. -/
theorem laterBytes_bridgesAfter (bridges : ℕ → Option Bridge) (s : State) (event : Event) (c : ℕ) :
    laterBytes (bridgesAfter bridges s event c) = laterBytes (bridges c) := by
  cases hbridge : bridges c with
  | none =>
      rw [bridgesAfter_of_none hbridge]
      cases (s.connections c).piped with
      | none => rfl
      | some target => rfl
  | some b =>
      rcases bridgesAfter_of_some hbridge s event with h | h
      · rw [h]
      · rw [h]
        rfl

theorem Carries.service {read : ℕ → List Byte} {p : Proxy} (h : Carries read p) {event : Event}
    {s : State} (hstep : Tunnel.step p.service event = some s) :
    Carries (readAfter read event)
      ⟨s, readAfter p.received event, bridgesAfter p.bridges s event⟩ := by
  have htransition := transition_of_step hstep
  refine ⟨h.heard.step htransition, fun c => ?_, fun c hnone => ?_, fun c b hsome => ?_⟩
  · change readAfter p.received event c =
      readAfter read event c ++ laterBytes (bridgesAfter p.bridges s event c)
    rw [laterBytes_bridgesAfter]
    cases htransition with
    | data d chunk hcreated hconnected hintact halive hreading =>
        rw [readAfter, readAfter]
        rcases eq_or_ne c d with rfl | hne
        · have hunbridged : p.bridges c = none := by
            rw [Option.eq_none_iff_forall_ne_some]
            intro b hb
            obtain ⟨-, -, port, hpiped⟩ := h.bridged c b hb
            cases hpiped.symm.trans ((h.heard.heard c).reading hreading).1
          rw [Function.update_self, Function.update_self, h.received c, hunbridged, laterBytes,
            List.append_nil, List.append_nil]
        · rw [Function.update_of_ne hne, Function.update_of_ne hne, h.received c]
    | _ => exact h.received c
  · cases hbridge : p.bridges c with
    | none =>
        change bridgesAfter p.bridges s event c = none at hnone
        rw [bridgesAfter_of_none hbridge] at hnone
        exact Option.map_eq_none_iff.mp hnone
    | some b =>
        rcases bridgesAfter_of_some hbridge s event with hafter | hafter
        · cases hafter.symm.trans hnone
        · cases hafter.symm.trans hnone
  · change bridgesAfter p.bridges s event c = some b at hsome
    cases hbridge : p.bridges c with
    | none =>
        rw [bridgesAfter_of_none hbridge] at hsome
        obtain ⟨target, hpiped, rfl⟩ := Option.map_eq_some_iff.mp hsome
        exact ⟨Bridge.sound_ofPending _, rfl, target.1, hpiped⟩
    | some before =>
        obtain ⟨hsound, hpreface, port, hpiped⟩ := h.bridged c before hbridge
        have hstill : (s.connections c).piped = some (port, before.pending) := by
          rcases h.heard.piped_step htransition c with hnone | hsame
          · cases hpiped.symm.trans hnone
          · exact hsame.trans hpiped
        rcases bridgesAfter_of_some hbridge s event with hafter | hafter
        · obtain rfl := Option.some.inj (hafter.symm.trans hsome)
          exact ⟨hsound, hpreface, port, hstill⟩
        · obtain ⟨hsound', hpending, hpreface'⟩ := hsound.step (hafter.symm.trans hsome)
          rw [hpending]
          exact ⟨hsound', hpreface'.trans hpreface, port, hstill⟩

theorem Carries.bridge {read : ℕ → List Byte} {p : Proxy} (h : Carries read p) {c : ℕ}
    {event : BridgeEvent} {b b' : Bridge} (hb : p.bridges c = some b)
    (hstep : b.step event = some b') :
    Carries read { p with
      received := Function.update p.received c (p.received c ++ event.brings)
      bridges := Function.update p.bridges c (some b') } := by
  obtain ⟨hsound, hpreface, port, hpiped⟩ := h.bridged c b hb
  obtain ⟨hsound', hpending, hpreface'⟩ := hsound.step hstep
  refine ⟨h.heard, fun d => ?_, fun d hnone => ?_, fun d other hother => ?_⟩
  · rcases eq_or_ne d c with rfl | hne
    · have hread := h.received d
      rw [hb, laterBytes] at hread
      change Function.update p.received d (p.received d ++ event.brings) d =
        read d ++ laterBytes (Function.update p.bridges d (some b') d)
      rw [Function.update_self, Function.update_self, hread, laterBytes, Bridge.fed_step hstep,
        List.append_assoc]
    · change Function.update p.received c (p.received c ++ event.brings) d =
        read d ++ laterBytes (Function.update p.bridges c (some b') d)
      rw [Function.update_of_ne hne, Function.update_of_ne hne]
      exact h.received d
  · change Function.update p.bridges c (some b') d = none at hnone
    rcases eq_or_ne d c with rfl | hne
    · rw [Function.update_self] at hnone
      cases hnone
    · rw [Function.update_of_ne hne] at hnone
      exact h.unbridged d hnone
  · change Function.update p.bridges c (some b') d = some other at hother
    rcases eq_or_ne d c with rfl | hne
    · rw [Function.update_self] at hother
      obtain rfl := Option.some.inj hother
      rw [hpending]
      exact ⟨hsound', hpreface'.trans hpreface, port, hpiped⟩
    · rw [Function.update_of_ne hne] at hother
      exact h.bridged d other hother

def Sound (p : Proxy) : Prop := ∃ read, Carries read p

theorem Sound.step {p p' : Proxy} {event : ProxyEvent} (hp : p.Sound)
    (hstep : p.step event = some p') : p'.Sound := by
  obtain ⟨read, h⟩ := hp
  cases event with
  | service event =>
      obtain ⟨s, hs, rfl⟩ := Option.map_eq_some_iff.mp hstep
      exact ⟨_, h.service hs⟩
  | bridge c event =>
      simp only [Proxy.step, Option.ite_none_right_eq_some] at hstep
      obtain ⟨b', hb', rfl⟩ := Option.map_eq_some_iff.mp hstep.2
      obtain ⟨b, hb, hevent⟩ := Option.bind_eq_some_iff.mp hb'
      exact ⟨read, h.bridge hb hevent⟩

theorem sound_start : Sound {} := by
  refine ⟨fun _ => [], allHeard_start, fun _ => rfl, fun _ _ => rfl, fun c b hb => ?_⟩
  cases hb

end Proxy

def proxy : Machine Proxy ProxyEvent where
  step := Proxy.step

/-- In every run a connection is bridged exactly when its first OPEN line names a
valid port. What the bridge carries to that port is in order what came behind the
line, what it carries back is in order what the local service sent, and each is
complete when the stream was piped to its end. -/
theorem tunnels_carry_streams {events : List ProxyEvent} {p : Proxy}
    (hrun : proxy.run {} events = some p) (c : ℕ) :
    ((p.bridges c).isSome = true ↔ ∃ frame, firstOpen (p.received c) = some frame ∧
        (State.targetPort? frame.args).isSome = true) ∧
      ∀ b, p.bridges c = some b → ∃ args port, State.targetPort? args = some port ∧
        OpenedWith (p.received c) args b.fromTunnel ∧
        (p.service.connections c).piped = some (port, b.pending) ∧
        b.toLocal <+: b.fromTunnel ∧ (b.delivered = true → b.toLocal = b.fromTunnel) ∧
        b.toTunnel <+: b.up.fed ∧ (b.answered = true → b.toTunnel = b.up.fed) := by
  have hsound : p.Sound :=
    @Machine.run_invariant _ _ proxy Proxy.Sound (fun _ _ _ hs hstep => hs.step hstep) _ _ _
      Proxy.sound_start hrun
  obtain ⟨read, hcarries⟩ := hsound
  have hheard := hcarries.heard.heard c
  have hreceived := hcarries.received c
  have hcarried : ∀ b, p.bridges c = some b → ∃ args port, State.targetPort? args = some port ∧
      OpenedWith (p.received c) args b.fromTunnel ∧
      (p.service.connections c).piped = some (port, b.pending) := by
    intro b hb
    obtain ⟨hsound, hpreface, port, hpiped⟩ := hcarries.bridged c b hb
    have hdetached : (p.service.connections c).detached = true := by
      by_contra hreading
      cases hpiped.symm.trans (hheard.reading (Bool.eq_false_iff.mpr hreading)).1
    obtain ⟨args, rest, hopened, htarget⟩ := hheard.opened hdetached
    obtain ⟨named, hnamed, hpair⟩ := Option.map_eq_some_iff.mp (htarget.symm.trans hpiped)
    obtain ⟨rfl, rfl⟩ := Prod.mk.inj hpair
    refine ⟨args, named, hnamed, ?_, hpiped⟩
    rw [hreceived, hb]
    exact hopened.append b.down.fed
  refine ⟨?_, fun b hb => ?_⟩
  · cases hbridge : p.bridges c with
    | none =>
        rw [hbridge, Proxy.laterBytes, List.append_nil] at hreceived
        have hpiped := hcarries.unbridged c hbridge
        have hiff := hheard.piped_isSome_iff
        rw [hpiped] at hiff
        rw [hreceived]
        exact hiff
    | some b =>
        obtain ⟨args, port, hport, hopened, -⟩ := hcarried b hbridge
        exact ⟨fun _ => ⟨⟨js "OPEN", args⟩, hopened.firstOpen, by rw [hport]; rfl⟩, fun _ => rfl⟩
  · obtain ⟨hsound, hpreface, -⟩ := hcarries.bridged c b hb
    obtain ⟨args, port, hport, hopened, hpiped⟩ := hcarried b hb
    have hback : b.toTunnel = b.up.out := by rw [Bridge.toTunnel, hpreface, List.nil_append]
    refine ⟨args, port, hport, hopened, hpiped, hsound.toLocal_prefix,
      hsound.toLocal_of_delivered, ?_, fun hanswered => ?_⟩
    · rw [hback]
      exact b.up.inOrder
    · rw [hback]
      exact (hsound.answered hanswered).2.2

/-- A request that comes in one chunk with the OPEN line and in a later one, and its
answer. -/
def bridgedRequest : List ProxyEvent :=
  [.service (.init (some (js "agent")) (some (js "secret"))),
    .service (.connect 0 (some (js "secret")) (Number.ofInt 1756000000000) (js "n1")),
    .service (sends 0 "PRE:OK\nOPEN 8080\nGET"), .bridge 0 .localConnect,
    .bridge 0 (.tunnelData (utf8Bytes (js " /\n"))), .bridge 0 (.passDown 3),
    .bridge 0 (.localData (utf8Bytes (js "200"))), .bridge 0 (.passUp 3), .bridge 0 .localEnd]

theorem bridgedRequest_carried : ∃ p b, proxy.run {} bridgedRequest = some p ∧
    p.bridges 0 = some b ∧ b.toTunnel = utf8Bytes (js "200") ∧ b.toTunnel = b.up.fed ∧
      ∃ args, OpenedWith (p.received 0) args (utf8Bytes (js "GET /\n")) := by
  have hran : ((proxy.run {} bridgedRequest).bind fun p => p.bridges 0).map
      (fun b => (b.toTunnel, b.answered, b.fromTunnel)) =
        some (utf8Bytes (js "200"), true, utf8Bytes (js "GET /\n")) := by decide +kernel
  obtain ⟨b, hb, hfields⟩ := Option.map_eq_some_iff.mp hran
  obtain ⟨p, hp, hbridge⟩ := Option.bind_eq_some_iff.mp hb
  simp only [Prod.mk.injEq] at hfields
  obtain ⟨hback, hanswered, hrequest⟩ := hfields
  obtain ⟨args, port, -, hopened, -, -, -, -, hall⟩ := (tunnels_carry_streams hp 0).2 b hbridge
  exact ⟨p, b, hp, hbridge, hback, hall hanswered, args, hrequest ▸ hopened⟩

end OpticsAgent.Tunnel
