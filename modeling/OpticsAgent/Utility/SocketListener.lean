import Mathlib
import OpticsAgent.Utility.Replay

/-!
The listeners of `createSocketListener` share one `ReplayGuard`. The agent's
clock is read at every delivery. A nonce is forgotten relative to the
timestamp of the message that arrives, not relative to the clock; the results
say when that is harmless.
-/

namespace OpticsAgent.Utility

open OpticsAgent.Ecma OpticsAgent.Node OpticsAgent.Lib

/-- Events whose payload is not verified. -/
def unverifiedEvents : List JsString := [js "register", js "connect", js "disconnect"]

/-- The registered listener: whether the handler is invoked, and the guard. -/
def receive (guard : ReplayGuard) (secret : Option JsString) (event : JsString)
    (payload : JsValue) (dateNow : Number) : Bool × ReplayGuard :=
  if event ∈ unverifiedEvents then (true, guard)
  else
    match truthy secret with
    | none => (false, guard)
    | some key =>
        match verify event payload (some key) { replayGuard := some guard } dateNow with
        | (.ok _, after) => (true, after.getD guard)
        | (.error _, after) => (false, after.getD guard)

structure Delivery where
  event : JsString
  payload : JsValue
  now : Double

/-- The guard of one listener factory, and the last reading of the clock. -/
structure Listener where
  replayGuard : ReplayGuard := {}
  clock : Double

def listener (secret : JsString) : Acceptor Listener Delivery where
  step s d :=
    let (invoked, guard) := receive s.replayGuard (some secret) d.event d.payload (.finite d.now)
    (invoked, { replayGuard := guard, clock := d.now })

def Delivery.authenticated (secret : JsString) (d : Delivery) :
    Except VerifyFailure (JsString × Number) :=
  authenticate d.event d.payload (some secret)

/-- A signed payload is identified by its event, timestamp, nonce and body. -/
def identity (secret : JsString) (d : Delivery) :
    Option (JsString × ℚ × JsString × JsString) :=
  match d.authenticated secret with
  | .ok (nonce, .finite t) =>
      some (d.event, t.value, nonce, canonicalize (stripEnvelope d.payload))
  | _ => none

/-- The clock has not gone backwards, and the event is a verified one. -/
def Orderly (s : Listener) (d : Delivery) : Prop :=
  s.clock.value ≤ d.now.value ∧ d.event ∉ unverifiedEvents

theorem orderly_same_clock {s : Listener} {d : Delivery} (hclock : s.clock = d.now)
    (hevent : d.event ∉ unverifiedEvents) : Orderly s d :=
  ⟨le_of_eq (congrArg Double.value hclock), hevent⟩

/-- Every nonce the delivery makes the guard forget has a timestamp the clock
check would reject by now. -/
def ForgetsOnlyExpired (secret : JsString) (s : Listener) (d : Delivery) : Prop :=
  ∀ nonce t, d.authenticated secret = .ok (nonce, t) →
    isExpired {} (.finite d.now) t = false →
    ∀ e ∈ s.replayGuard.seen, (t.distance e.2).gt s.replayGuard.windowMs = true →
      isExpired {} (.finite d.now) e.2 = true

/-! ## Distances -/

/-- Two times are further apart than the default window. -/
def far (p q : ℚ) : Bool := (Number.roundSigned false (p - q)).gt defaultMaxClockSkewMs

theorem far_mono {p q p' q' : ℚ} (h : |p - q| ≤ |p' - q'|) (hfar : far p q = true) :
    far p' q' = true :=
  Number.gt_roundSigned_mono defaultMaxClockSkewMs h hfar

theorem far_self (p : ℚ) : far p p = false := by
  unfold far
  rw [sub_self]
  decide +kernel

theorem distance_eq_far (x y : Double) :
    ((Number.finite x).distance (.finite y)).gt defaultMaxClockSkewMs = far x.value y.value := by
  rw [Number.distance_finite, far]

theorem isExpired_default (now t : Number) :
    isExpired {} now t = (now.distance t).gt defaultMaxClockSkewMs := by
  have hpositive : defaultMaxClockSkewMs.gt (Number.ofInt 0) = true := by decide +kernel
  rw [isExpired, Option.getD_none, hpositive, Bool.true_and]
  rfl

/-! ## One delivery -/

/-- A delivery on a verified event is rejected before the guard is asked, or
prunes the guard and is then rejected as a replay or accepted. -/
theorem listener_cases (secret : JsString) (s : Listener) (d : Delivery)
    (hevent : d.event ∉ unverifiedEvents) :
    ((listener secret).accepts s d = false ∧
      (listener secret).next s d = ⟨s.replayGuard, d.now⟩ ∧
      ∀ nonce t, d.authenticated secret = .ok (nonce, t) →
        isExpired {} (.finite d.now) t = true) ∨
    (∃ nonce x, d.authenticated secret = .ok (nonce, .finite x) ∧
      far d.now.value x.value = false ∧
      ((s.replayGuard.prune (.finite x)).has nonce = true ∧
          (listener secret).accepts s d = false ∧
          (listener secret).next s d = ⟨s.replayGuard.prune (.finite x), d.now⟩ ∨
        (s.replayGuard.prune (.finite x)).has nonce = false ∧
          (listener secret).accepts s d = true ∧
          (listener secret).next s d =
            ⟨{ s.replayGuard.prune (.finite x) with
              seen := (s.replayGuard.prune (.finite x)).seen ++ [(nonce, .finite x)] },
              d.now⟩)) := by
  rcases eq_or_ne secret [] with rfl | hsecret
  · have hkey : truthy (some []) = none := rfl
    refine Or.inl ⟨?_, ?_, ?_⟩
    · simp [Acceptor.accepts, listener, receive, hevent, hkey]
    · simp [Acceptor.next, listener, receive, hevent, hkey]
    · intro nonce t hauth
      cases hauth
  have hkey : truthy (some secret) = some secret := by simp [truthy, hsecret]
  rcases verify_guard_cases d.event d.payload (some secret) none s.replayGuard none
    (.finite d.now) with ⟨reason, hresult, hearly⟩ | ⟨nonce, t, hauth, hnow, hguard⟩
  · refine Or.inl ⟨?_, ?_, hearly⟩
    · simp [Acceptor.accepts, listener, receive, hevent, hkey, hresult]
    · simp [Acceptor.next, listener, receive, hevent, hkey, hresult]
  · obtain ⟨x, rfl⟩ : ∃ x, t = .finite x := by
      have hfinite := isFinite_of_authenticate hauth
      cases t with
      | finite x => exact ⟨x, rfl⟩
      | nan => cases hfinite
      | infinity neg => cases hfinite
    have hnear : far d.now.value x.value = false := by
      rw [← distance_eq_far, ← isExpired_default]
      exact hnow
    refine Or.inr ⟨nonce, x, hauth, hnear, ?_⟩
    rcases hguard with ⟨hhas, hresult⟩ | ⟨hhas, hresult⟩
    · refine Or.inl ⟨hhas, ?_, ?_⟩
      · simp [Acceptor.accepts, listener, receive, hevent, hkey, hresult]
      · simp [Acceptor.next, listener, receive, hevent, hkey, hresult]
    · refine Or.inr ⟨hhas, ?_, ?_⟩
      · simp [Acceptor.accepts, listener, receive, hevent, hkey, hresult]
      · simp [Acceptor.next, listener, receive, hevent, hkey, hresult]

@[simp] theorem clock_next (secret : JsString) (s : Listener) (d : Delivery) :
    ((listener secret).next s d).clock = d.now := rfl

/-- The default window, one entry for a nonce, and remembered timestamps that
the clock has passed or still has within the allowed skew. -/
structure Listener.Timely (s : Listener) : Prop where
  window : s.replayGuard.windowMs = defaultMaxClockSkewMs
  distinct : (s.replayGuard.seen.map Prod.fst).Nodup
  entry : ∀ e ∈ s.replayGuard.seen, ∃ x, e.2 = .finite x ∧
    (x.value ≤ s.clock.value ∨ far s.clock.value x.value = false)

/-- Time only brings a timestamp that lies ahead nearer. -/
theorem timely_later {clock now t : ℚ} (hclock : clock ≤ now)
    (h : t ≤ clock ∨ far clock t = false) : t ≤ now ∨ far now t = false := by
  rcases le_or_gt t now with hpast | hahead
  · exact Or.inl hpast
  · refine Or.inr ?_
    rcases h with hpassed | hnear
    · exact absurd (hpassed.trans hclock) (not_le.mpr hahead)
    · by_contra hfar
      have hnearer : |now - t| ≤ |clock - t| := by
        rw [abs_of_neg (by linarith), abs_of_neg (by linarith)]
        linarith
      rw [far_mono hnearer (by simpa using hfar)] at hnear
      cases hnear

theorem Listener.Timely.step {secret : JsString} {s : Listener} {d : Delivery} (h : s.Timely)
    (hd : Orderly s d) : ((listener secret).next s d).Timely := by
  have hentry : ∀ e ∈ s.replayGuard.seen, ∃ x, e.2 = .finite x ∧
      (x.value ≤ d.now.value ∨ far d.now.value x.value = false) := by
    intro e he
    obtain ⟨x, hx, htime⟩ := h.entry e he
    exact ⟨x, hx, timely_later hd.1 htime⟩
  have hdistinct (t : Number) : ((s.replayGuard.prune t).seen.map Prod.fst).Nodup :=
    h.distinct.sublist (List.filter_sublist.map Prod.fst)
  rcases listener_cases secret s d hd.2 with ⟨-, hnext, -⟩ |
    ⟨nonce, x, -, hnear, ⟨-, -, hnext⟩ | ⟨hhas, -, hnext⟩⟩
  · rw [hnext]
    exact ⟨h.window, h.distinct, hentry⟩
  · rw [hnext]
    exact ⟨h.window, hdistinct _, fun e he => hentry e (mem_prune.mp he).1⟩
  · rw [hnext]
    refine ⟨h.window, ?_, fun e he => ?_⟩
    · have hfresh : nonce ∉ (s.replayGuard.prune (.finite x)).seen.map Prod.fst := by
        intro hmem
        obtain ⟨e, he, hname⟩ := List.mem_map.mp hmem
        rw [has_eq_true.mpr ⟨e, he, hname⟩] at hhas
        cases hhas
      rw [List.map_append, List.map_singleton]
      exact (List.nodup_append_comm.mp (List.nodup_cons.mpr ⟨hfresh, hdistinct _⟩))
    · rcases List.mem_append.mp he with hold | hnew
      · exact hentry e (mem_prune.mp hold).1
      · rw [List.mem_singleton.mp hnew]
        exact ⟨x, rfl, Or.inr hnear⟩

/-! ## Spent payloads -/

/-- The nonce is remembered with this timestamp, or the clock has left the
timestamp behind. -/
def SpentStamp (s : Listener) (nonce : JsString) (t : ℚ) : Prop :=
  (∃ x : Double, (nonce, .finite x) ∈ s.replayGuard.seen ∧ x.value = t) ∨
    t ≤ s.clock.value ∧ far s.clock.value t = true

def Spent (s : Listener) (key : Option (JsString × ℚ × JsString × JsString)) : Prop :=
  ∃ event t nonce body, key = some (event, t, nonce, body) ∧ SpentStamp s nonce t

theorem identity_of_authenticated {secret : JsString} {d : Delivery} {nonce : JsString}
    {x : Double} (h : d.authenticated secret = .ok (nonce, .finite x)) :
    identity secret d =
      some (d.event, x.value, nonce, canonicalize (stripEnvelope d.payload)) := by
  rw [identity, h]

/-- The clock only moves away from a timestamp it has left behind. -/
theorem far_later {clock now t : ℚ} (hclock : clock ≤ now) (ht : t ≤ clock)
    (h : far clock t = true) : far now t = true := by
  refine far_mono ?_ h
  rw [abs_of_nonneg (by linarith), abs_of_nonneg (by linarith)]
  linarith

/-- A remembered timestamp that is out of the skew window was left behind. -/
theorem Listener.Timely.left_behind {s : Listener} (hs : s.Timely) {now x : Double}
    {nonce : JsString} (hclock : s.clock.value ≤ now.value)
    (hseen : (nonce, .finite x) ∈ s.replayGuard.seen)
    (hexpired : isExpired {} (.finite now) (.finite x) = true) :
    x.value ≤ now.value ∧ far now.value x.value = true := by
  rw [isExpired_default, distance_eq_far] at hexpired
  obtain ⟨y, hy, htime⟩ := hs.entry _ hseen
  obtain rfl : x = y := Number.finite.inj hy
  rcases timely_later hclock htime with hpassed | hnear
  · exact ⟨hpassed, hexpired⟩
  · rw [hexpired] at hnear
    cases hnear

/-- What is spent stays spent. -/
theorem SpentStamp.step {secret : JsString} {s : Listener} {d : Delivery} {nonce : JsString}
    {t : ℚ} (h : SpentStamp s nonce t) (hs : s.Timely) (hd : Orderly s d)
    (hforget : ForgetsOnlyExpired secret s d) :
    SpentStamp ((listener secret).next s d) nonce t := by
  have hpast (guard : ReplayGuard) (hleft : t ≤ s.clock.value ∧ far s.clock.value t = true) :
      SpentStamp ⟨guard, d.now⟩ nonce t :=
    Or.inr ⟨hleft.1.trans hd.1, far_later hd.1 hleft.1 hleft.2⟩
  -- an entry either survives the pruning or has been left behind by the clock
  have hpruned (n : JsString) (y : Double) (hauth : d.authenticated secret = .ok (n, .finite y))
      (hnear : far d.now.value y.value = false) (extra : List (JsString × Number)) :
      SpentStamp ⟨{ s.replayGuard.prune (.finite y) with
        seen := (s.replayGuard.prune (.finite y)).seen ++ extra }, d.now⟩ nonce t := by
    rcases h with ⟨x, hseen, rfl⟩ | hleft
    · cases hfar : ((Number.finite y).distance (.finite x)).gt s.replayGuard.windowMs with
      | false =>
          exact Or.inl ⟨x, List.mem_append_left _ (mem_prune.mpr ⟨hseen, hfar⟩), rfl⟩
      | true =>
          have hnow : isExpired {} (.finite d.now) (.finite y) = false := by
            rw [isExpired_default, distance_eq_far]
            exact hnear
          have hexpired := hforget n (.finite y) hauth hnow _ hseen hfar
          exact Or.inr (hs.left_behind hd.1 hseen hexpired)
    · exact hpast _ hleft
  rcases listener_cases secret s d hd.2 with ⟨-, hnext, -⟩ |
    ⟨n, y, hauth, hnear, ⟨-, -, hnext⟩ | ⟨-, -, hnext⟩⟩
  · rw [hnext]
    rcases h with hremembered | hleft
    · exact Or.inl hremembered
    · exact hpast _ hleft
  · rw [hnext]
    have hkept := hpruned n y hauth hnear []
    rwa [List.append_nil] at hkept
  · rw [hnext]
    exact hpruned n y hauth hnear _

/-- An accepted payload is spent. -/
theorem spent_of_accepts {secret : JsString} {s : Listener} {d : Delivery} (hd : Orderly s d)
    (haccept : (listener secret).accepts s d = true) :
    Spent ((listener secret).next s d) (identity secret d) := by
  rcases listener_cases secret s d hd.2 with ⟨hreject, -, -⟩ |
    ⟨nonce, x, hauth, -, ⟨-, hreject, -⟩ | ⟨-, -, hnext⟩⟩
  · rw [hreject] at haccept
    cases haccept
  · rw [hreject] at haccept
    cases haccept
  · refine ⟨_, _, _, _, identity_of_authenticated hauth, Or.inl ?_⟩
    rw [hnext]
    exact ⟨x, List.mem_append_right _ (by simp), rfl⟩

/-- A spent payload is rejected: its nonce is still remembered, or the clock
check fails. -/
theorem rejects_of_spent {secret : JsString} {s : Listener} {d : Delivery} (hs : s.Timely)
    (hd : Orderly s d) (hspent : Spent s (identity secret d)) :
    (listener secret).accepts s d = false := by
  rcases listener_cases secret s d hd.2 with ⟨hreject, -, -⟩ |
    ⟨nonce, x, hauth, hnear, ⟨-, hreject, -⟩ | ⟨hhas, -, -⟩⟩
  · exact hreject
  · exact hreject
  obtain ⟨event, t, n, body, hkey, hstamp⟩ := hspent
  rw [identity_of_authenticated hauth] at hkey
  obtain ⟨-, rfl, rfl, -⟩ : d.event = event ∧ x.value = t ∧ nonce = n ∧ _ := by
    simpa using hkey
  exfalso
  rcases hstamp with ⟨y, hseen, hvalue⟩ | hleft
  · have hkept : ((Number.finite x).distance (.finite y)).gt s.replayGuard.windowMs = false := by
      rw [hs.window, distance_eq_far, hvalue, far_self]
    rw [has_eq_true.mpr ⟨_, mem_prune.mpr ⟨hseen, hkept⟩, rfl⟩] at hhas
    cases hhas
  · rw [far_later hd.1 hleft.1 hleft.2] at hnear
    cases hnear

/-! ## Runs -/

theorem Listener.Timely.start (clock : Double) : Listener.Timely { clock := clock } := by
  refine ⟨rfl, List.nodup_nil, ?_⟩
  intro e he
  cases he

/-- In a run whose clock never goes backwards and whose deliveries make the
guard forget only what has expired, every signed payload is accepted at most
once. -/
theorem accepted_at_most_once (secret : JsString) (clock : Double) (deliveries : List Delivery)
    (hrun : (listener secret).Along (fun s d => Orderly s d ∧ ForgetsOnlyExpired secret s d)
      { clock := clock } deliveries) :
    (((listener secret).accepted { clock := clock } deliveries).map (identity secret)).Nodup := by
  refine Acceptor.nodup_accepted_keys (identity secret) Spent ?_ ?_ ?_ ?_
    (Listener.Timely.start clock) hrun
  · intro s d hs hd
    exact hs.step hd.1
  · intro s d _ hd haccept
    exact spent_of_accepts hd.1 haccept
  · intro s d k hs hd hspent
    obtain ⟨event, t, nonce, body, hkey, hstamp⟩ := hspent
    exact ⟨event, t, nonce, body, hkey, hstamp.step hs hd.1 hd.2⟩
  · intro s d hs hd hspent
    exact rejects_of_spent hs hd.1 hspent

/-- An empty payload signed for the time `t`. -/
def signedDelivery (secret nonce : JsString) (t now : Double) : Delivery where
  event := js "command"
  payload := .obj (signedProps (js "command") (.obj []) secret (.finite t) nonce)
  now := now

theorem authenticated_signedDelivery {secret nonce : JsString} (t now : Double)
    (hsecret : secret ≠ []) (hnonce : nonce ≠ []) :
    (signedDelivery secret nonce t now).authenticated secret = .ok (nonce, .finite t) := by
  have hstrip := stripEnvelope_signed (js "command") ⟨[], List.Pairwise.nil, trivial⟩ secret
    (.finite t) nonce
  refine authenticate_of_envelope hsecret hnonce rfl
    (ownValue_signed_timestamp (js "command") ⟨[], List.Pairwise.nil, trivial⟩ secret _ nonce)
    (ownValue_signed_nonce (js "command") ⟨[], List.Pairwise.nil, trivial⟩ secret _ nonce) ?_
  rw [digest, signingMaterial, hstrip]
  exact ownValue_signed_signature (js "command") ⟨[], List.Pairwise.nil, trivial⟩ secret _ nonce

/-! Two deliveries stamped at the edges of the window around one reading of the
clock. -/

def edgeClock : Double := .natural 1756000000000 (by norm_num)

def pastEdge : Delivery :=
  signedDelivery (js "secret") (js "a") (.natural 1755999700000 (by norm_num)) edgeClock

def futureEdge : Delivery :=
  signedDelivery (js "secret") (js "b") (.natural 1756000300000 (by norm_num)) edgeClock

/-- A delivery and its immediate replay. -/
theorem accepted_at_most_once_replay :
    (((listener (js "secret")).accepted { clock := edgeClock } [pastEdge, pastEdge]).map
      (identity (js "secret"))).Nodup := by
  refine accepted_at_most_once (js "secret") edgeClock [pastEdge, pastEdge] ?_
  have hstart : Orderly { clock := edgeClock } pastEdge := orderly_same_clock rfl (by decide)
  have hseen : ((listener (js "secret")).next { clock := edgeClock } pastEdge).replayGuard.seen =
      [(js "a", .finite (.natural 1755999700000 (by norm_num)))] := by
    decide +kernel
  refine ⟨⟨hstart, ?_⟩, ⟨orderly_same_clock (clock_next _ _ _) (by decide), ?_⟩, trivial⟩
  · intro nonce t _ _ e he
    cases he
  · intro nonce t hauth _ e he hfar
    rw [pastEdge, authenticated_signedDelivery _ _ (by decide) (by decide)] at hauth
    obtain ⟨-, rfl⟩ := Prod.mk.inj (Except.ok.inj hauth)
    rw [hseen, List.mem_singleton] at he
    rw [he, ((Listener.Timely.start edgeClock).step hstart).window, distance_eq_far,
      far_self] at hfar
    cases hfar

/-- The message from the future edge makes the guard forget the one from the
past edge, which is then accepted again. -/
theorem accepted_at_most_once_fails :
    ¬ ∀ (secret : JsString) (clock : Double) (deliveries : List Delivery),
      (listener secret).Along Orderly { clock := clock } deliveries →
      (((listener secret).accepted { clock := clock } deliveries).map
        (identity secret)).Nodup := by
  intro h
  have hrun : (listener (js "secret")).Along Orderly { clock := edgeClock }
      [pastEdge, futureEdge, pastEdge] :=
    ⟨orderly_same_clock rfl (by decide), orderly_same_clock (clock_next _ _ _) (by decide),
      orderly_same_clock (clock_next _ _ _) (by decide), trivial⟩
  have hall : (listener (js "secret")).outcomes { clock := edgeClock }
      [pastEdge, futureEdge, pastEdge] = [true, true, true] := by
    decide +kernel
  simp only [Acceptor.outcomes, List.cons.injEq, and_true] at hall
  have hnodup := h (js "secret") edgeClock _ hrun
  rw [Acceptor.accepted_cons_of_accepts _ hall.1, Acceptor.accepted_cons_of_accepts _ hall.2.1,
    Acceptor.accepted_cons_of_accepts _ hall.2.2] at hnodup
  simp [Acceptor.accepted] at hnodup

/-! ## The condition is exact -/

/-- Everything remembered was accepted. -/
theorem accepted_of_seen {secret : JsString} {clock : Double} {deliveries : List Delivery}
    (hrun : (listener secret).Along Orderly { clock := clock } deliveries)
    {e : JsString × Number}
    (he : e ∈ ((listener secret).final { clock := clock } deliveries).replayGuard.seen) :
    ∃ r ∈ (listener secret).accepted { clock := clock } deliveries,
      r.authenticated secret = .ok e := by
  induction deliveries using List.reverseRecOn with
  | nil => cases he
  | append_singleton rest d ih =>
      obtain ⟨hrest, hd, -⟩ := Acceptor.along_append.mp hrun
      have hkept (hold : e ∈ ((listener secret).final { clock := clock } rest).replayGuard.seen) :
          ∃ r ∈ (listener secret).accepted { clock := clock } (rest ++ [d]),
            r.authenticated secret = .ok e := by
        obtain ⟨r, hr, hauth⟩ := ih hrest hold
        rw [Acceptor.accepted_append]
        exact ⟨r, List.mem_append_left _ hr, hauth⟩
      rw [Acceptor.final_append] at he
      change e ∈ ((listener secret).next _ d).replayGuard.seen at he
      rcases listener_cases secret _ d hd.2 with ⟨-, hnext, -⟩ |
        ⟨nonce, x, hauth, -, ⟨-, -, hnext⟩ | ⟨-, haccept, hnext⟩⟩
      · rw [hnext] at he
        exact hkept he
      · rw [hnext] at he
        exact hkept (mem_prune.mp he).1
      · rw [hnext] at he
        rcases List.mem_append.mp he with hold | hnew
        · exact hkept (mem_prune.mp hold).1
        · rw [List.mem_singleton.mp hnew, Acceptor.accepted_append,
            Acceptor.accepted_cons_of_accepts _ haccept]
          exact ⟨d, List.mem_append_right _ List.mem_cons_self, hauth⟩

/-- A delivery that makes the guard forget a nonce the clock check still lets
through is followed by a second acceptance of that payload. -/
theorem accepted_again_of_forgotten (secret : JsString) (clock : Double)
    (deliveries : List Delivery) (d : Delivery)
    (hrun : (listener secret).Along Orderly { clock := clock } (deliveries ++ [d]))
    (hforget : ¬ ForgetsOnlyExpired secret
      ((listener secret).final { clock := clock } deliveries) d) :
    ∃ r, (listener secret).Along Orderly { clock := clock } (deliveries ++ [d] ++ [r]) ∧
      ¬ (((listener secret).accepted { clock := clock } (deliveries ++ [d] ++ [r])).map
        (identity secret)).Nodup := by
  obtain ⟨hpast, hd, -⟩ := Acceptor.along_append.mp hrun
  have htimely : ((listener secret).final { clock := clock } deliveries).Timely :=
    Acceptor.Along.invariant (fun s d hs hd => hs.step hd) (Listener.Timely.start clock) hpast
  simp only [ForgetsOnlyExpired, not_forall] at hforget
  obtain ⟨nonce, t, hauth, hnow, e, he, hfar, hvalid⟩ := hforget
  obtain ⟨r, hr, hrauth⟩ := accepted_of_seen hpast he
  have hevent : r.event ∉ unverifiedEvents :=
    Acceptor.Along.of_mem_accepted (fun _ a (ha : Orderly _ a) => ha.2) hpast r hr
  generalize hs : (listener secret).final { clock := clock } deliveries = s at *
  -- after the delivery the nonce is unknown to a guard pruned for its timestamp
  have hgone : (((listener secret).next s d).replayGuard.prune e.2).has e.1 = false := by
    rw [← Bool.not_eq_true, has_eq_true]
    rintro ⟨e', he', hname⟩
    obtain ⟨hseen, hnear⟩ := mem_prune.mp he'
    rw [(htimely.step hd).window, ← htimely.window] at hnear
    have hold (hmem : e' ∈ (s.replayGuard.prune t).seen) : False := by
      obtain ⟨hmem', hkept⟩ := mem_prune.mp hmem
      obtain rfl := List.inj_on_of_nodup_map htimely.distinct hmem' he hname
      rw [hfar] at hkept
      cases hkept
    rcases listener_cases secret s d hd.2 with ⟨-, -, hearly⟩ | ⟨n, x, hauth', -, hcases⟩
    · rw [hearly nonce t hauth] at hnow
      cases hnow
    · rw [hauth] at hauth'
      obtain ⟨rfl, rfl⟩ := Prod.mk.inj (Except.ok.inj hauth')
      rcases hcases with ⟨-, -, hnext⟩ | ⟨-, -, hnext⟩
      · rw [hnext] at hseen
        exact hold hseen
      · rw [hnext] at hseen
        rcases List.mem_append.mp hseen with hmem | hnew
        · exact hold hmem
        · rw [List.mem_singleton.mp hnew, Number.distance_comm, hfar] at hnear
          cases hnear
  let again : Delivery := { r with now := d.now }
  have horderly : Orderly ((listener secret).next s d) again :=
    orderly_same_clock (clock_next secret s d) hevent
  have haccept : (listener secret).accepts ((listener secret).next s d) again = true := by
    rcases listener_cases secret ((listener secret).next s d) again hevent with
      ⟨-, -, hearly⟩ | ⟨n, x, hauth', -, ⟨hhas, -, -⟩ | ⟨-, haccept, -⟩⟩
    · exact absurd (hearly e.1 e.2 hrauth) hvalid
    · obtain rfl : e = (n, .finite x) := Except.ok.inj (hrauth.symm.trans hauth')
      rw [hgone] at hhas
      cases hhas
    · exact haccept
  have hfinal : (listener secret).final { clock := clock } (deliveries ++ [d]) =
      (listener secret).next s d := by
    rw [Acceptor.final_append, hs]
    rfl
  refine ⟨again, Acceptor.along_append.mpr ⟨hrun, ?_⟩, ?_⟩
  · rw [hfinal]
    exact ⟨horderly, trivial⟩
  · rw [Acceptor.accepted_append, hfinal, Acceptor.accepted_cons_of_accepts _ haccept,
      Acceptor.accepted_append]
    intro hnodup
    have hsame : identity secret again = identity secret r := rfl
    have hmem : identity secret r ∈
        ((listener secret).accepted { clock := clock } deliveries).map (identity secret) :=
      List.mem_map_of_mem hr
    simp only [List.map_append, List.map_cons, List.nodup_append] at hnodup
    exact hnodup.2.2 _ (List.mem_append_left _ hmem) _ List.mem_cons_self hsame.symm

end OpticsAgent.Utility
