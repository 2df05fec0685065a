import Mathlib
import OpticsAgent.Utility.Hash

/-!
Signing survives the wire. The sender digests the payload in memory, the
receiver the value it parsed; both canonical texts are the text of one
document, because the conversions of `JSON.stringify`, the sign of zero and
the envelope fields all drop out of it.
-/

namespace OpticsAgent.Utility

open OpticsAgent.Ecma OpticsAgent.Node

/-- `JSON.parse(JSON.stringify(v))`. -/
def wire (v : JsValue) : Option JsValue := v.stringify.bind parseJson

theorem wire_eq {v : JsValue} {j : Json} (hv : v.WellFormed) (h : v.toJson = some j) :
    wire v = some j.parsed := by
  rw [wire, JsValue.stringify, h, Option.map_some, Option.bind_some]
  exact parseJson_print j (JsValue.toJson_wellFormed v hv j h)

/-! ## The envelope -/

def isBodyField (key : JsString) : Bool := key ∉ envelopeFields

theorem stripEnvelope_obj {props : Props JsValue} (h : OwnOrder props) :
    stripEnvelope (.obj props) = .obj (props.filter fun p => isBodyField p.1) := by
  rw [stripEnvelope, asObject, spread, buildProps_of_ownOrder h]
  rfl

/-- Writing an envelope field does not change the body. -/
theorem filter_setProp {α : Type*} (props : Props α) {key : JsString} (value : α)
    (h : isBodyField key = false) :
    (setProp props key value).filter (fun p => isBodyField p.1) =
      props.filter fun p => isBodyField p.1 := by
  unfold setProp
  split_ifs with hmem
  · clear hmem
    induction props with
    | nil => rfl
    | cons p rest ih =>
        rw [List.map_cons]
        rcases eq_or_ne p.1 key with hp | hp
        · have hold : isBodyField p.1 = false := hp ▸ h
          rw [if_pos hp, List.filter_cons_of_neg (by simp [h]),
            List.filter_cons_of_neg (by simp [hold]), ih]
        · rw [if_neg hp, List.filter_cons, List.filter_cons, ih]
  · clear hmem
    induction props with
    | nil => simp [insertProp, h]
    | cons p rest ih =>
        unfold insertProp
        split_ifs with hprec
        · rw [List.filter_cons, List.filter_cons, ih]
        · rw [List.filter_cons_of_neg (by simp [h])]

/-- The properties `sign` gives the payload it returns. -/
def signedProps (event : JsString) (payload : JsValue) (secret : JsString) (timestamp : Number)
    (nonce : JsString) : Props JsValue :=
  setProp (setProp (setProp (spread payload) timestampField (.num timestamp)) nonceField
    (.str nonce)) signatureField (.str (digest event timestamp nonce payload secret))

theorem sign_eq (event : JsString) (payload : JsValue) {secret : JsString} (hsecret : secret ≠ [])
    (timestamp : Number) (nonce : JsString) (dateNow : Number) (createNonce : JsString) :
    sign event payload (some secret) ⟨some timestamp, some nonce⟩ dateNow createNonce =
      .obj (signedProps event payload secret timestamp nonce) := by
  have hkey : truthy (some secret) = some secret := by simp [truthy, hsecret]
  rw [sign, hkey]
  rfl

section Signed

variable (event : JsString) (payload : PlainObject) (secret : JsString) (timestamp : Number)
  (nonce : JsString)

theorem ownOrder_signedProps :
    OwnOrder (signedProps event (.obj payload.props) secret timestamp nonce) := by
  unfold signedProps
  apply ownOrder_setProp
  apply ownOrder_setProp
  apply ownOrder_setProp
  exact ownOrder_buildProps payload.props

theorem mem_signedProps {q : JsString × JsValue}
    (h : q ∈ signedProps event (.obj payload.props) secret timestamp nonce) :
    q ∈ payload.props ∨ ∃ x, q.2 = .num x ∨ ∃ s, q.2 = .str s := by
  rcases mem_of_mem_setProp h with rfl | h
  · exact Or.inr ⟨timestamp, Or.inr ⟨_, rfl⟩⟩
  rcases mem_of_mem_setProp h with rfl | h
  · exact Or.inr ⟨timestamp, Or.inr ⟨_, rfl⟩⟩
  rcases mem_of_mem_setProp h with rfl | h
  · exact Or.inr ⟨timestamp, Or.inl rfl⟩
  · exact Or.inl (mem_of_mem_buildProps h)

theorem signed_wellFormed :
    (JsValue.obj (signedProps event (.obj payload.props) secret timestamp nonce)).WellFormed := by
  obtain ⟨-, hprops⟩ := payload.wellFormed
  rw [JsValue.wellFormedProps_iff] at hprops
  refine ⟨ownOrder_signedProps event payload secret timestamp nonce, ?_⟩
  rw [JsValue.wellFormedProps_iff]
  intro q hq
  rcases mem_signedProps event payload secret timestamp nonce hq with hold | ⟨x, hnum | ⟨s, hstr⟩⟩
  · exact hprops q hold
  · rw [hnum]
    trivial
  · rw [hstr]
    trivial

/-- The envelope fields are not part of what is signed. -/
theorem stripEnvelope_signed :
    stripEnvelope (.obj (signedProps event (.obj payload.props) secret timestamp nonce)) =
      stripEnvelope (.obj payload.props) := by
  have horder : OwnOrder payload.props := payload.wellFormed.1
  rw [stripEnvelope_obj (ownOrder_signedProps event payload secret timestamp nonce),
    stripEnvelope_obj horder, signedProps, filter_setProp _ _ (by decide),
    filter_setProp _ _ (by decide), filter_setProp _ _ (by decide), spread,
    buildProps_of_ownOrder horder]

theorem ownValue_signed_signature :
    ownValue (signedProps event (.obj payload.props) secret timestamp nonce) signatureField =
      some (.str (digest event timestamp nonce (.obj payload.props) secret)) := by
  rw [signedProps, ownValue_setProp, if_pos rfl]

theorem ownValue_signed_nonce :
    ownValue (signedProps event (.obj payload.props) secret timestamp nonce) nonceField =
      some (.str nonce) := by
  rw [signedProps, ownValue_setProp, if_neg (by decide), ownValue_setProp, if_pos rfl]

theorem ownValue_signed_timestamp :
    ownValue (signedProps event (.obj payload.props) secret timestamp nonce) timestampField =
      some (.num timestamp) := by
  rw [signedProps, ownValue_setProp, if_neg (by decide), ownValue_setProp, if_neg (by decide),
    ownValue_setProp, if_pos rfl]

end Signed

/-! ## The receiver's copy -/

/-- The object the receiver parses from the text of an object. -/
def receivedProps (props : Props JsValue) : Props JsValue :=
  Json.propsToValue (Json.clearProps (JsValue.propsToJson props))

theorem wire_obj {props : Props JsValue} (h : (JsValue.obj props).WellFormed) :
    wire (.obj props) = some (.obj (receivedProps props)) :=
  wire_eq h (JsValue.toJson_obj props)

theorem ownOrder_receivedProps {props : Props JsValue} (h : OwnOrder props) :
    OwnOrder (receivedProps props) := by
  rw [receivedProps, Json.propsToValue_eq_map, Json.clearProps_eq_map]
  exact ownOrder_map _ (ownOrder_map _ (JsValue.ownOrder_propsToJson h))

theorem ownValue_receivedProps {props : Props JsValue} (h : OwnOrder props) (k : JsString) :
    ownValue (receivedProps props) k =
      ((ownValue props k).bind JsValue.toJson).map Json.parsed := by
  rw [receivedProps, Json.propsToValue_eq_map, Json.clearProps_eq_map, ownValue_map, ownValue_map,
    JsValue.ownValue_propsToJson props h.nodup, Option.map_map]
  rfl

/-- Sender and receiver canonicalize the body to one text. -/
theorem canonicalize_received {props : Props JsValue} (h : OwnOrder props) :
    canonicalize (stripEnvelope (.obj (receivedProps props))) =
      canonicalize (stripEnvelope (.obj props)) := by
  have hreceived : (receivedProps props).filter (fun p => isBodyField p.1) =
      Json.propsToValue (Json.clearProps
        (JsValue.propsToJson (props.filter fun p => isBodyField p.1))) := by
    rw [receivedProps, JsValue.propsToJson_filter, Json.propsToValue_eq_map,
      Json.propsToValue_eq_map, Json.clearProps_eq_map, Json.clearProps_eq_map, List.filter_map,
      List.filter_map]
    rfl
  have hvalue : (JsValue.obj ((receivedProps props).filter fun p => isBodyField p.1)) =
      (Json.obj (JsValue.propsToJson (props.filter fun p => isBodyField p.1))).parsed := by
    rw [hreceived]
    rfl
  rw [stripEnvelope_obj (ownOrder_receivedProps h), stripEnvelope_obj h, hvalue, Json.parsed,
    canonicalize_toValue, Json.canonical_clearNegZero, canonicalize_eq, JsValue.toJson_obj]
  rfl

/-! ## Checking the signature -/

theorem equalsInConstantTime_hexText {bytes : List Byte} (h : bytes ≠ []) :
    equalsInConstantTime (hexText bytes) (hexText bytes) = true := by
  have hlower : (hexText bytes).map lowerUnit = hexText bytes := by
    have hunit : ∀ d : Fin 16, lowerUnit (hexUnit d) = hexUnit d := by decide
    unfold hexText
    rw [List.map_flatMap]
    congr 1
    funext b
    simp [hunit]
  unfold equalsInConstantTime
  rw [hlower, hexBytes_hexText]
  simp [h]

theorem all_isHexDigit_hexText (bytes : List Byte) : (hexText bytes).all isHexDigit = true := by
  rw [List.all_eq_true]
  intro c hc
  obtain ⟨b, -, hb⟩ := List.mem_flatMap.mp hc
  simp only [List.mem_cons, List.not_mem_nil, or_false] at hb
  rcases hb with rfl | rfl
  · rw [isHexDigit, hexValue?_hexUnit]
    rfl
  · rw [isHexDigit, hexValue?_hexUnit]
    rfl

theorem hmacSha256_ne_nil (key message : List Byte) : hmacSha256 key message ≠ [] := by
  intro h
  have hlength := length_hmacSha256 key message
  rw [h] at hlength
  cases hlength

theorem digest_ne_nil (event : JsString) (timestamp : Number) (nonce : JsString)
    (payload : JsValue) (secret : JsString) : digest event timestamp nonce payload secret ≠ [] := by
  intro h
  have hbytes := congrArg hexBytes h
  rw [digest, hexBytes_hexText] at hbytes
  exact hmacSha256_ne_nil _ _ hbytes

/-- An envelope with a finite timestamp, a nonce and the digest of the payload
it is on passes. -/
theorem authenticate_of_envelope {event : JsString} {props : Props JsValue} {secret : JsString}
    {timestamp : Number} {nonce : JsString} (hsecret : secret ≠ []) (hnonce : nonce ≠ [])
    (hfinite : timestamp.isFinite = true)
    (hts : ownValue props timestampField = some (.num timestamp))
    (hn : ownValue props nonceField = some (.str nonce))
    (hsig : ownValue props signatureField =
      some (.str (digest event timestamp nonce (.obj props) secret))) :
    authenticate event (.obj props) (some secret) = .ok (nonce, timestamp) := by
  have hkey : truthy (some secret) = some secret := by simp [truthy, hsecret]
  have hsignature : nonEmptyString props signatureField =
      some (digest event timestamp nonce (.obj props) secret) := by
    rw [nonEmptyString, hsig]
    exact if_neg (digest_ne_nil _ _ _ _ _)
  have htimestamp : finiteNumber props timestampField = some timestamp := by
    rw [finiteNumber, hts]
    exact if_pos hfinite
  have hnonceField : nonEmptyString props nonceField = some nonce := by
    rw [nonEmptyString, hn]
    exact if_neg hnonce
  have hhex : (digest event timestamp nonce (.obj props) secret).all isHexDigit = true :=
    all_isHexDigit_hexText _
  have hequal : equalsInConstantTime (digest event timestamp nonce (.obj props) secret)
      (digest event timestamp nonce (.obj props) secret) = true :=
    equalsInConstantTime_hexText (hmacSha256_ne_nil _ _)
  simp [authenticate, require, asObject, hkey, hsignature, htimestamp, hnonceField, hhex, hequal,
    bind, Except.bind]

/-- A signed payload authenticates after a round trip. -/
theorem authenticate_received (event : JsString) (payload : PlainObject) {secret nonce : JsString}
    (t : Double) (hsecret : secret ≠ []) (hnonce : nonce ≠ []) :
    authenticate event
        (.obj (receivedProps (signedProps event (.obj payload.props) secret (.finite t) nonce)))
        (some secret) =
      .ok (nonce, .finite t.clearNegZero) := by
  have horder := ownOrder_signedProps event payload secret (.finite t) nonce
  have hvalue (k : JsString) := ownValue_receivedProps horder k
  have hbody := canonicalize_received horder
  rw [stripEnvelope_signed] at hbody
  have hdigest : digest event (.finite t) nonce (.obj payload.props) secret =
      digest event (.finite t.clearNegZero) nonce
        (.obj (receivedProps (signedProps event (.obj payload.props) secret (.finite t) nonce)))
        secret := by
    unfold digest signingMaterial
    rw [hbody, Number.toText, Number.toText, numberLiteral_clearNegZero]
  refine authenticate_of_envelope hsecret hnonce rfl ?_ ?_ ?_
  · rw [hvalue, ownValue_signed_timestamp]
    rfl
  · rw [hvalue, ownValue_signed_nonce]
    rfl
  · rw [hvalue, ownValue_signed_signature, ← hdigest]
    rfl

/-- A signed payload is accepted after a round trip, by any guard that has not
seen its nonce and any clock within the allowed skew. -/
theorem verify_wire_sign (event : JsString) (payload : PlainObject) (secret nonce : JsString)
    (t : Double) (now : Number) (skew : Option Number) (guard : ReplayGuard)
    (dateNow dateNow' : Number) (createNonce : JsString) (hsecret : secret ≠ [])
    (hnonce : nonce ≠ [])
    (hskew : (now.distance (.finite t)).gt (skew.getD defaultMaxClockSkewMs) = false)
    (hfresh : guard.has nonce = false) :
    ∃ received,
      wire (sign event (.obj payload.props) (some secret) ⟨some (.finite t), some nonce⟩ dateNow
        createNonce) = some received ∧
      (verify event received (some secret) ⟨skew, some guard, some now⟩ dateNow').1 = .ok () := by
  rw [sign_eq event _ hsecret]
  refine ⟨_, wire_obj (signed_wellFormed event payload secret (.finite t) nonce), ?_⟩
  have hclear : (Number.finite t.clearNegZero).strictEq (.finite t) = true := by
    simp [Number.strictEq]
  have hexpired : isExpired ⟨skew, some guard, some now⟩ dateNow' (.finite t.clearNegZero) =
      false := by
    rw [isExpired, Option.getD_some, Number.distance_congr_right now hclear, hskew, Bool.and_false]
  have hpruned : (guard.prune (.finite t.clearNegZero)).has nonce = false := by
    rw [ReplayGuard.has, List.any_eq_false] at hfresh ⊢
    intro e he
    exact hfresh e (List.mem_of_mem_filter he)
  rw [verify, authenticate_received event payload t hsecret hnonce]
  simp [hexpired, ReplayGuard.remember, hpruned]

/-- A payload with `NaN`, `undefined` and a nested field named like the
envelope, checked a minute later. -/
theorem verify_wire_sign_later :
    ∃ received,
      wire (sign (js "command")
          (.obj [(js "b", .arr [.undefined, .num .nan]), (js "a", .undefined),
            (js "c", .obj [(js "_sig", .date none)])])
          (some (js "secret"))
          ⟨some (.finite (.natural 1756000000000 (by norm_num))), some (js "n1")⟩ .nan []) =
        some received ∧
      (verify (js "command") received (some (js "secret"))
        ⟨none, some {}, some (Number.ofInt 1756000060000)⟩ .nan).1 = .ok () :=
  verify_wire_sign (js "command")
    ⟨[(js "b", .arr [.undefined, .num .nan]), (js "a", .undefined),
      (js "c", .obj [(js "_sig", .date none)])],
      ⟨by unfold OwnOrder; decide +kernel, by
        simp [JsValue.WellFormedProps, JsValue.WellFormed, JsValue.WellFormedItems, OwnOrder]⟩⟩
    (js "secret") (js "n1") (.natural 1756000000000 (by norm_num)) (Number.ofInt 1756000060000)
    none {} .nan .nan [] (by decide) (by decide) (by decide +kernel) (by decide)

end OpticsAgent.Utility
