import Mathlib
import OpticsAgent.Lib.Acceptor
import OpticsAgent.Utility.WireRoundTrip

/-!
`verify` over sequences of calls on one `ReplayGuard`. A rejected call leaves
the guard alone: the remembered timestamps lie pairwise within the window, so
the pruning that comes before a `replayed` rejection finds nothing to forget.
-/

namespace OpticsAgent.Utility

open OpticsAgent.Ecma OpticsAgent.Node OpticsAgent.Lib

theorem require_eq_ok {α : Type} {value : Option α} {failure : VerifyFailure} {x : α} :
    require value failure = .ok x ↔ value = some x := by
  cases value <;> simp [require]

/-- The timestamp of an authenticated payload is a finite number. -/
theorem isFinite_of_authenticate {event : JsString} {payload : JsValue} {secret : Option JsString}
    {nonce : JsString} {timestamp : Number}
    (h : authenticate event payload secret = .ok (nonce, timestamp)) :
    timestamp.isFinite = true := by
  have hbind {α β : Type} {x : Except VerifyFailure α} {f : α → Except VerifyFailure β} {y : β}
      (hx : x >>= f = .ok y) : ∃ a, x = .ok a ∧ f a = .ok y := by
    cases x with
    | error e => cases hx
    | ok a => exact ⟨a, rfl, hx⟩
  obtain ⟨key, -, h⟩ := hbind h
  obtain ⟨envelope, -, h⟩ := hbind h
  obtain ⟨signature, -, h⟩ := hbind h
  obtain ⟨t, ht, h⟩ := hbind h
  obtain ⟨n, -, h⟩ := hbind h
  have hsame : t = timestamp := by
    split_ifs at h
    exact (Prod.mk.inj (Except.ok.inj h)).2
  subst hsame
  have hfield := require_eq_ok.mp ht
  unfold finiteNumber at hfield
  split at hfield
  · split_ifs at hfield with hfinite
    rwa [Option.some.inj hfield] at hfinite
  · cases hfield

/-- What `verify` does with a guard: a call that fails before the guard is
asked leaves it, any other call prunes it and then rejects or remembers. -/
theorem verify_guard_cases (event : JsString) (payload : JsValue) (secret : Option JsString)
    (skew : Option Number) (guard : ReplayGuard) (now : Option Number) (dateNow : Number) :
    (∃ reason, verify event payload secret ⟨skew, some guard, now⟩ dateNow =
        (.error reason, some guard) ∧
      ∀ nonce t, authenticate event payload secret = .ok (nonce, t) →
        isExpired ⟨skew, some guard, now⟩ dateNow t = true) ∨
    (∃ nonce t, authenticate event payload secret = .ok (nonce, t) ∧
      isExpired ⟨skew, some guard, now⟩ dateNow t = false ∧
      ((guard.prune t).has nonce = true ∧
          verify event payload secret ⟨skew, some guard, now⟩ dateNow =
            (.error .replayed, some (guard.prune t)) ∨
        (guard.prune t).has nonce = false ∧
          verify event payload secret ⟨skew, some guard, now⟩ dateNow =
            (.ok (), some { guard.prune t with
              seen := (guard.prune t).seen ++ [(nonce, t)] }))) := by
  unfold verify
  cases hauth : authenticate event payload secret with
  | error reason => exact Or.inl ⟨reason, rfl, fun _ _ h => by cases h⟩
  | ok e =>
      obtain ⟨nonce, t⟩ := e
      cases hexpired : isExpired ⟨skew, some guard, now⟩ dateNow t with
      | true =>
          refine Or.inl ⟨.expired, by simp [hexpired], ?_⟩
          intro n' t' h
          obtain ⟨rfl, rfl⟩ := Prod.mk.inj (Except.ok.inj h)
          exact hexpired
      | false =>
          refine Or.inr ⟨nonce, t, rfl, hexpired, ?_⟩
          cases hhas : (guard.prune t).has nonce with
          | true => exact Or.inl ⟨rfl, by simp [hexpired, ReplayGuard.remember, hhas]⟩
          | false => exact Or.inr ⟨rfl, by simp [hexpired, ReplayGuard.remember, hhas]⟩

/-! ## Sequences of calls -/

structure VerifyCall where
  event : JsString
  payload : JsValue
  secret : Option JsString
  maxClockSkewMs : Option Number
  now : Number

/-- The nonce and timestamp of a call whose payload is validly signed. -/
def VerifyCall.authenticated (call : VerifyCall) : Except VerifyFailure (JsString × Number) :=
  authenticate call.event call.payload call.secret

def VerifyCall.run (call : VerifyCall) (guard : ReplayGuard) :
    Except VerifyFailure Unit × Option ReplayGuard :=
  verify call.event call.payload call.secret ⟨call.maxClockSkewMs, some guard, some call.now⟩
    call.now

/-- Calls of `verify` on one guard. -/
def verifier : Acceptor ReplayGuard VerifyCall where
  step guard call := ((call.run guard).1.toBool, (call.run guard).2.getD guard)

/-- The remembered entries come from the calls, and lie within the window of
one another. -/
structure Consistent (calls : List VerifyCall) (guard : ReplayGuard) : Prop where
  source : ∀ e ∈ guard.seen, ∃ call ∈ calls, call.authenticated = .ok e
  near : ∀ e ∈ guard.seen, ∀ e' ∈ guard.seen, e ≠ e' →
    (e.2.distance e'.2).gt guard.windowMs = false

def SingleTimestamp (calls : List VerifyCall) : Prop :=
  ∀ a ∈ calls, ∀ b ∈ calls, ∀ nonce t t', a.authenticated = .ok (nonce, t) →
    b.authenticated = .ok (nonce, t') → t.strictEq t' = true

theorem mem_prune {guard : ReplayGuard} {now : Number} {e : JsString × Number} :
    e ∈ (guard.prune now).seen ↔
      e ∈ guard.seen ∧ (now.distance e.2).gt guard.windowMs = false := by
  simp [ReplayGuard.prune]

theorem has_eq_true {guard : ReplayGuard} {nonce : JsString} :
    guard.has nonce = true ↔ ∃ e ∈ guard.seen, e.1 = nonce := by
  simp [ReplayGuard.has]

/-- A replayed nonce is remembered with the timestamp it comes with, and no
entry is out of the window around that. -/
theorem Consistent.prune_eq {calls : List VerifyCall} {guard : ReplayGuard}
    (h : Consistent calls guard) (hsingle : SingleTimestamp calls) {call : VerifyCall}
    (hcall : call ∈ calls) {nonce : JsString} {t : Number}
    (hauth : call.authenticated = .ok (nonce, t)) (hhas : (guard.prune t).has nonce = true) :
    guard.prune t = guard := by
  obtain ⟨e, he, rfl⟩ := has_eq_true.mp hhas
  obtain ⟨hseen, hnear⟩ := mem_prune.mp he
  obtain ⟨source, hsource, hsourceAuth⟩ := h.source e hseen
  have hsame : t.strictEq e.2 = true := hsingle call hcall source hsource e.1 t e.2 hauth hsourceAuth
  have hall : ∀ e' ∈ guard.seen, (!(t.distance e'.2).gt guard.windowMs) = true := by
    intro e' he'
    have hmoved : t.distance e'.2 = e.2.distance e'.2 := by
      rw [Number.distance_comm t, Number.distance_comm e.2,
        Number.distance_congr_right e'.2 hsame]
    rcases eq_or_ne e e' with rfl | hne
    · rw [hnear]
      rfl
    · rw [hmoved, h.near e hseen e' he' hne]
      rfl
  have hfilter := List.filter_eq_self.mpr hall
  unfold ReplayGuard.prune
  rw [hfilter]

theorem Consistent.frame {calls : List VerifyCall} (hsingle : SingleTimestamp calls)
    (guard : ReplayGuard) (call : VerifyCall) (h : Consistent calls guard) (hcall : call ∈ calls) :
    verifier.Frame guard call := by
  intro hrejected
  rcases verify_guard_cases call.event call.payload call.secret call.maxClockSkewMs guard
    (some call.now) call.now with ⟨reason, hresult, -⟩ |
    ⟨nonce, t, hauth, -, ⟨hhas, hresult⟩ | ⟨-, hresult⟩⟩
  · simp [Acceptor.next, verifier, VerifyCall.run, hresult]
  · have hsame := h.prune_eq hsingle hcall hauth hhas
    simp [Acceptor.next, verifier, VerifyCall.run, hresult, hsame]
  · simp [Acceptor.accepts, verifier, VerifyCall.run, hresult, Except.toBool] at hrejected

theorem Consistent.step {calls : List VerifyCall} (guard : ReplayGuard) (call : VerifyCall)
    (h : Consistent calls guard) (hcall : call ∈ calls) :
    Consistent calls (verifier.next guard call) := by
  have hpruned (t : Number) : Consistent calls (guard.prune t) :=
    ⟨fun e he => h.source e (mem_prune.mp he).1,
      fun e he e' he' => h.near e (mem_prune.mp he).1 e' (mem_prune.mp he').1⟩
  rcases verify_guard_cases call.event call.payload call.secret call.maxClockSkewMs guard
    (some call.now) call.now with ⟨reason, hresult, -⟩ |
    ⟨nonce, t, hauth, -, ⟨-, hresult⟩ | ⟨-, hresult⟩⟩
  · simpa [Acceptor.next, verifier, VerifyCall.run, hresult] using h
  · simpa [Acceptor.next, verifier, VerifyCall.run, hresult] using hpruned t
  · have hnext : verifier.next guard call =
        { guard.prune t with seen := (guard.prune t).seen ++ [(nonce, t)] } := by
      simp [Acceptor.next, verifier, VerifyCall.run, hresult]
    have hold : ∀ e ∈ (guard.prune t).seen, (t.distance e.2).gt guard.windowMs = false :=
      fun e he => (mem_prune.mp he).2
    rw [hnext]
    constructor
    · intro e he
      rcases List.mem_append.mp he with he | he
      · exact (hpruned t).source e he
      · rw [List.mem_singleton.mp he]
        exact ⟨call, hcall, hauth⟩
    · intro e he e' he' hne
      rcases List.mem_append.mp he with he | he
      · rcases List.mem_append.mp he' with he' | he'
        · exact (hpruned t).near e he e' he' hne
        · rw [List.mem_singleton.mp he', Number.distance_comm]
          exact hold e he
      · rw [List.mem_singleton] at he
        rcases List.mem_append.mp he' with he' | he'
        · rw [he]
          exact hold e' he'
        · exact absurd (he.trans (List.mem_singleton.mp he').symm) hne

/-- Rejected calls leave the guard as it was, and deleting them all changes
neither the outcome of a remaining call nor the final guard. -/
theorem rejected_calls_have_no_effect (windowMs : Number) (calls : List VerifyCall)
    (hsingle : SingleTimestamp calls) :
    verifier.Along (fun guard call =>
        verifier.accepts guard call = false → verifier.next guard call = guard)
      { windowMs := windowMs } calls ∧
    verifier.outcomes { windowMs := windowMs }
        (verifier.accepted { windowMs := windowMs } calls) =
      (verifier.outcomes { windowMs := windowMs } calls).filter id ∧
    verifier.final { windowMs := windowMs } (verifier.accepted { windowMs := windowMs } calls) =
      verifier.final { windowMs := windowMs } calls := by
  have hstart : Consistent calls { windowMs := windowMs } := by
    constructor <;> simp
  have hframe : verifier.Along verifier.Frame { windowMs := windowMs } calls :=
    Acceptor.Along.of_invariant (Consistent.frame hsingle) Consistent.step hstart
      (fun _ h => h)
  exact ⟨hframe, Acceptor.outcomes_accepted hframe⟩

/-- An unsigned payload, a signed one and its replay. -/
theorem rejected_calls_have_no_effect_replay :
    let signed : VerifyCall :=
      ⟨js "command", .obj (signedProps (js "command") (.obj []) (js "secret")
        (Number.ofInt 1756000000000) (js "n1")), some (js "secret"), none,
        Number.ofInt 1756000000000⟩
    let calls := [{ signed with payload := .obj [] }, signed, signed]
    verifier.Along (fun guard call =>
        verifier.accepts guard call = false → verifier.next guard call = guard)
      { windowMs := defaultMaxClockSkewMs } calls ∧
    verifier.outcomes { windowMs := defaultMaxClockSkewMs }
        (verifier.accepted { windowMs := defaultMaxClockSkewMs } calls) =
      (verifier.outcomes { windowMs := defaultMaxClockSkewMs } calls).filter id ∧
    verifier.final { windowMs := defaultMaxClockSkewMs }
        (verifier.accepted { windowMs := defaultMaxClockSkewMs } calls) =
      verifier.final { windowMs := defaultMaxClockSkewMs } calls := by
  intro signed calls
  apply rejected_calls_have_no_effect
  have hunsigned (e : JsString × Number) :
      VerifyCall.authenticated { signed with payload := .obj [] } ≠ .ok e := by
    intro h
    cases h
  intro a ha b hb nonce t t' hauth hauth'
  simp only [calls, List.mem_cons, List.not_mem_nil, or_false] at ha hb
  rcases ha with rfl | rfl | rfl
  · exact absurd hauth (hunsigned _)
  all_goals
    rcases hb with rfl | rfl | rfl
    · exact absurd hauth' (hunsigned _)
    all_goals
      rw [hauth] at hauth'
      obtain ⟨-, rfl⟩ := Prod.mk.inj (Except.ok.inj hauth')
      exact Number.strictEq_self_of_isFinite (isFinite_of_authenticate hauth)

end OpticsAgent.Utility
