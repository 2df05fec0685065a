import Mathlib
import OpticsAgent.Node.Crypto
import OpticsAgent.Utility.Canonical

/-!
The signing utility: `signingMaterial`, `digest`, `sign`, `verify` and the
`ReplayGuard`. Where the source falls back to `Date.now()` or a fresh nonce,
the value it would draw is an argument. `verify` is cut in two: `authenticate`
has the checks that read only the payload and the secret, the rest has the
clock and the guard.
-/

namespace OpticsAgent.Utility

open OpticsAgent.Ecma OpticsAgent.Node

def signatureSchemeVersion : ℕ := 1

def signatureField : JsString := js "_sig"

def timestampField : JsString := js "_ts"

def nonceField : JsString := js "_nonce"

def envelopeFields : List JsString := [signatureField, timestampField, nonceField]

/-- Five minutes. -/
def defaultMaxClockSkewMs : Number := Number.ofInt (5 * 60 * 1000)

inductive VerifyFailure where
  | noSecret
  | missingSignature
  | malformedSignature
  | missingTimestamp
  | missingNonce
  | expired
  | replayed
  | invalidSignature
  deriving DecidableEq

def VerifyFailure.text : VerifyFailure → JsString
  | noSecret => js "no_secret"
  | missingSignature => js "missing_signature"
  | malformedSignature => js "malformed_signature"
  | missingTimestamp => js "missing_timestamp"
  | missingNonce => js "missing_nonce"
  | expired => js "expired"
  | replayed => js "replayed"
  | invalidSignature => js "invalid_signature"

/-! ## Signing -/

/-- `{ ...payload }`: the own properties of objects, the elements of arrays and
the units of strings. -/
def spread : JsValue → Props JsValue
  | .obj props => buildProps props
  | .arr items => buildProps (items.zipIdx.map fun p => ((naturalDigits p.2).map digitUnit, p.1))
  | .str s => buildProps (s.zipIdx.map fun p => ((naturalDigits p.2).map digitUnit, .str [p.1]))
  | _ => []

/-- The payload as an object that is not an array. A date is one, without own
properties. -/
def asObject : JsValue → Option (Props JsValue)
  | .obj props => some props
  | .date _ => some []
  | _ => none

/-- Payloads that are not objects are signed as they are. -/
def stripEnvelope (payload : JsValue) : JsValue :=
  match asObject payload with
  | none => payload
  | some _ => .obj ((spread payload).filter fun p => p.1 ∉ envelopeFields)

def signingMaterial (event : JsString) (timestamp : Number) (nonce : JsString)
    (payload : JsValue) : JsString :=
  [10].intercalate
    [js "v" ++ (naturalDigits signatureSchemeVersion).map digitUnit, event, timestamp.toText,
      nonce, canonicalize (stripEnvelope payload)]

def digest (event : JsString) (timestamp : Number) (nonce : JsString) (payload : JsValue)
    (secret : JsString) : JsString :=
  hexText (hmacSha256 (utf8Bytes secret)
    (utf8Bytes (signingMaterial event timestamp nonce payload)))

/-- The fixed vector both ends of the connection are tested against. -/
example :
    digest (js "service-status") (Number.ofInt 1756000000000) (js "fixednonce")
      (.obj [(js "serviceIndex", .num (Number.ofInt 7)), (js "status", .str (js "running")),
        (js "nested", .obj [(js "z", .arr [.num (Number.ofInt 3), .num (Number.ofInt 1),
          .num (Number.ofInt 2)]), (js "a", .null)])]) (List.replicate 64 97) =
      js "87c3b0072ca0e67142ac489bb6c04043d1ff5bd86d79f2e4b42f833617e436ef" := by
  decide +kernel

/-- The secret, unless it is absent or empty. -/
def truthy (secret : Option JsString) : Option JsString :=
  secret.filter fun s => s ≠ []

structure SignOptions where
  now : Option Number := none
  nonce : Option JsString := none

def sign (event : JsString) (payload : JsValue) (secret : Option JsString)
    (options : SignOptions) (dateNow : Number) (createNonce : JsString) : JsValue :=
  match truthy secret with
  | none => payload
  | some key =>
      let timestamp := options.now.getD dateNow
      let nonce := options.nonce.getD createNonce
      let stamped := setProp (spread payload) timestampField (.num timestamp)
      let tagged := setProp stamped nonceField (.str nonce)
      .obj (setProp tagged signatureField (.str (digest event timestamp nonce payload key)))

/-! ## Verification -/

def isHexDigit (c : CodeUnit) : Bool := (hexValue? c).isSome

/-- `toLowerCase` on the ASCII letters, the only ones a checked signature has. -/
def lowerUnit (c : CodeUnit) : CodeUnit :=
  if 65 ≤ c.val ∧ c.val ≤ 90 then Fin.ofNat _ (c.val + 32) else c

def equalsInConstantTime (left right : JsString) : Bool :=
  let leftBuffer := hexBytes (left.map lowerUnit)
  let rightBuffer := hexBytes (right.map lowerUnit)
  if leftBuffer.length ≠ rightBuffer.length ∨ leftBuffer.length = 0 then false
  else leftBuffer = rightBuffer

def nonEmptyString (envelope : Props JsValue) (field : JsString) : Option JsString :=
  match ownValue envelope field with
  | some (.str s) => if s = [] then none else some s
  | _ => none

def finiteNumber (envelope : Props JsValue) (field : JsString) : Option Number :=
  match ownValue envelope field with
  | some (.num x) => if x.isFinite then some x else none
  | _ => none

def require {α : Type} (value : Option α) (failure : VerifyFailure) : Except VerifyFailure α :=
  match value with
  | none => .error failure
  | some x => .ok x

/-- The checks of `verify` up to the signature; the nonce and the timestamp of
a payload that passes them. -/
def authenticate (event : JsString) (payload : JsValue) (secret : Option JsString) :
    Except VerifyFailure (JsString × Number) := do
  let key ← require (truthy secret) .noSecret
  let envelope ← require (asObject payload) .missingSignature
  let signature ← require (nonEmptyString envelope signatureField) .missingSignature
  let timestamp ← require (finiteNumber envelope timestampField) .missingTimestamp
  let nonce ← require (nonEmptyString envelope nonceField) .missingNonce
  if !signature.all isHexDigit then
    .error .malformedSignature
  else if !equalsInConstantTime signature (digest event timestamp nonce payload key) then
    .error .invalidSignature
  else
    .ok (nonce, timestamp)

/-- The remembered nonces with their timestamps, oldest entry first. -/
structure ReplayGuard where
  windowMs : Number := defaultMaxClockSkewMs
  seen : List (JsString × Number) := []

namespace ReplayGuard

def prune (guard : ReplayGuard) (now : Number) : ReplayGuard :=
  { guard with seen := guard.seen.filter fun e => !(now.distance e.2).gt guard.windowMs }

def has (guard : ReplayGuard) (nonce : JsString) : Bool :=
  guard.seen.any fun e => e.1 = nonce

/-- `false` when the nonce is known already. -/
def remember (guard : ReplayGuard) (nonce : JsString) (timestamp : Number) :
    Bool × ReplayGuard :=
  let pruned := guard.prune timestamp
  if pruned.has nonce then (false, pruned)
  else (true, { pruned with seen := pruned.seen ++ [(nonce, timestamp)] })

end ReplayGuard

structure VerifyOptions where
  maxClockSkewMs : Option Number := none
  replayGuard : Option ReplayGuard := none
  now : Option Number := none

/-- The clock check; a limit that is not positive turns it off. -/
def isExpired (options : VerifyOptions) (dateNow timestamp : Number) : Bool :=
  let maxClockSkewMs := options.maxClockSkewMs.getD defaultMaxClockSkewMs
  maxClockSkewMs.gt (Number.ofInt 0) &&
    ((options.now.getD dateNow).distance timestamp).gt maxClockSkewMs

def verify (event : JsString) (payload : JsValue) (secret : Option JsString)
    (options : VerifyOptions) (dateNow : Number) :
    Except VerifyFailure Unit × Option ReplayGuard :=
  match authenticate event payload secret with
  | .error reason => (.error reason, options.replayGuard)
  | .ok (nonce, timestamp) =>
      if isExpired options dateNow timestamp then (.error .expired, options.replayGuard)
      else
        match options.replayGuard with
        | none => (.ok (), none)
        | some guard =>
            match guard.remember nonce timestamp with
            | (true, remembered) => (.ok (), some remembered)
            | (false, remembered) => (.error .replayed, some remembered)

end OpticsAgent.Utility
