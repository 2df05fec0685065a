import Mathlib
import OpticsAgent.Utility.SocketListener

/-!
`createSocketEmitter`, and what it sends on its way to a listener that has the
same secret. Whoever can write to the connection may have delivered anything
before: the listener remembers only nonces that were validly signed, so that
nobody without the secret can use up the nonce of an event that is yet to come.
-/

namespace OpticsAgent.Utility

open OpticsAgent.Ecma OpticsAgent.Node OpticsAgent.Lib

/-- What the emitter hands to the socket. The signing of a tree does not fail. -/
def createSocketEmitter (readSigningSecret : Option JsString) (event : JsString)
    (payload : JsValue) (dateNow : Number) (createNonce : JsString) : JsValue :=
  match truthy readSigningSecret with
  | none => payload
  | some secret =>
      match asObject payload with
      | none => payload
      | some _ => sign event payload (some secret) {} dateNow createNonce

theorem createSocketEmitter_object (event : JsString) (payload : PlainObject)
    {secret : JsString} (hsecret : secret ≠ []) (dateNow : Number) (createNonce : JsString) :
    createSocketEmitter (some secret) event (.obj payload.props) dateNow createNonce =
      .obj (signedProps event (.obj payload.props) secret dateNow createNonce) := by
  have hkey : truthy (some secret) = some secret := by simp [truthy, hsecret]
  rw [createSocketEmitter, hkey]
  simp only [asObject]
  rw [sign, hkey]
  rfl

/-- Everything a guard remembers came with a valid signature. -/
theorem authenticated_of_seen {secret : JsString} (s : Listener) (history : List Delivery)
    (hstart : s.replayGuard.seen = []) {e : JsString × Number}
    (he : e ∈ ((listener secret).final s history).replayGuard.seen) :
    ∃ d ∈ history, d.authenticated secret = .ok e := by
  induction history using List.reverseRecOn with
  | nil =>
      rw [show ((listener secret).final s []).replayGuard.seen = [] from hstart] at he
      cases he
  | append_singleton front d ih =>
      have hkept (hold : e ∈ ((listener secret).final s front).replayGuard.seen) :
          ∃ d' ∈ front ++ [d], d'.authenticated secret = .ok e := by
        obtain ⟨d', hd', hauth⟩ := ih hold
        exact ⟨d', List.mem_append_left _ hd', hauth⟩
      rw [Acceptor.final_append] at he
      change e ∈ ((listener secret).next _ d).replayGuard.seen at he
      by_cases hevent : d.event ∈ unverifiedEvents
      · have hnext : ((listener secret).next ((listener secret).final s front) d).replayGuard =
            ((listener secret).final s front).replayGuard := by
          simp [Acceptor.next, listener, receive, hevent]
        rw [hnext] at he
        exact hkept he
      · rcases listener_cases secret _ d hevent with ⟨-, hnext, -⟩ |
          ⟨nonce, x, hauth, -, ⟨-, -, hnext⟩ | ⟨-, -, hnext⟩⟩
        · rw [hnext] at he
          exact hkept he
        · rw [hnext] at he
          exact hkept (mem_prune.mp he).1
        · rw [hnext] at he
          rcases List.mem_append.mp he with hold | hnew
          · exact hkept (mem_prune.mp hold).1
          · rw [List.mem_singleton.mp hnew]
            exact ⟨d, List.mem_append_right _ (List.mem_singleton_self d), hauth⟩

/-- An event that was signed and sent reaches its handler, whatever was delivered
before, unless its own nonce had been delivered with a valid signature. -/
theorem sent_event_reaches_handler (event : JsString) (payload : PlainObject)
    (secret nonce : JsString) (t now clock : Double) (history : List Delivery)
    (hevent : event ∉ unverifiedEvents) (hsecret : secret ≠ []) (hnonce : nonce ≠ [])
    (hskew : far now.value t.value = false)
    (hfresh : ∀ d ∈ history, ∀ t', d.authenticated secret ≠ .ok (nonce, t')) :
    ∃ received,
      wire (createSocketEmitter (some secret) event (.obj payload.props) (.finite t) nonce) =
        some received ∧
      (listener secret).accepts ((listener secret).final { clock := clock } history)
        ⟨event, received, now⟩ = true ∧
      canonicalize (stripEnvelope received) =
        canonicalize (stripEnvelope (.obj payload.props)) := by
  rw [createSocketEmitter_object event payload hsecret]
  have horder := ownOrder_signedProps event payload secret (.finite t) nonce
  refine ⟨_, wire_obj (signed_wellFormed event payload secret (.finite t) nonce), ?_, ?_⟩
  · have hreceived := authenticate_received event payload t hsecret hnonce
    rcases listener_cases secret ((listener secret).final { clock := clock } history)
      ⟨event, _, now⟩ hevent with ⟨-, -, hearly⟩ | ⟨n, x, hauth, -, ⟨hhas, -, -⟩ | ⟨-, haccept, -⟩⟩
    · have hexpired := hearly nonce _ hreceived
      rw [isExpired_default, distance_eq_far, Double.value_clearNegZero, hskew] at hexpired
      cases hexpired
    · obtain ⟨rfl, -⟩ := Prod.mk.inj (Except.ok.inj (hreceived.symm.trans hauth))
      obtain ⟨e, he, rfl⟩ := has_eq_true.mp hhas
      obtain ⟨d, hd, hsigned⟩ := authenticated_of_seen _ history rfl (mem_prune.mp he).1
      exact absurd hsigned (hfresh d hd e.2)
    · exact haccept
  · rw [canonicalize_received horder, stripEnvelope_signed]

/-- The nonce of an event, under a signature that somebody made up. -/
def forgedDelivery : Delivery where
  event := js "command"
  payload := .obj [(signatureField, .str (js "00")), (timestampField, .num (.finite edgeClock)),
    (nonceField, .str (js "n1"))]
  now := edgeClock

theorem sent_event_survives_forgery :
    ∃ received,
      wire (createSocketEmitter (some (js "secret")) (js "command") (.obj []) (.finite edgeClock)
        (js "n1")) = some received ∧
      (listener (js "secret")).accepts
        ((listener (js "secret")).final { clock := edgeClock } [forgedDelivery])
        ⟨js "command", received, edgeClock⟩ = true ∧
      canonicalize (stripEnvelope received) = canonicalize (stripEnvelope (.obj [])) := by
  have hforged : (forgedDelivery.authenticated (js "secret")).toOption = none := by
    decide +kernel
  refine sent_event_reaches_handler (js "command") ⟨[], List.Pairwise.nil, trivial⟩ (js "secret")
    (js "n1") edgeClock edgeClock edgeClock [forgedDelivery] (by decide) (by decide) (by decide)
    (far_self _) (fun d hd t' hauth => ?_)
  rw [List.mem_singleton.mp hd] at hauth
  rw [hauth] at hforged
  cases hforged

end OpticsAgent.Utility
