import Mathlib
import OpticsAgent.Ecma.PlainText
import OpticsAgent.Lib.Framing
import OpticsAgent.Utility.Hash

/-!
The signed text has one reading. Of the five joined parts only the nonce can hold
a newline, and the text is read from both ends.
-/

namespace OpticsAgent.Utility

open OpticsAgent.Ecma OpticsAgent.Lib

theorem plain_canonicalize (v : JsValue) : Plain (canonicalize v) := by
  unfold canonicalize JsValue.stringify
  cases (normalize v).toJson with
  | none => decide
  | some j => exact plain_print j

/-- Equal signed texts have equal parts, whatever the nonces hold. -/
theorem signingMaterial_inj {event event' nonce nonce' : JsString} {t t' : Number}
    {payload payload' : JsValue} (hevent : (10 : CodeUnit) ∉ event)
    (hevent' : (10 : CodeUnit) ∉ event')
    (h : signingMaterial event t nonce payload = signingMaterial event' t' nonce' payload') :
    event = event' ∧ t.toText = t'.toText ∧ nonce = nonce' ∧
      canonicalize (stripEnvelope payload) = canonicalize (stripEnvelope payload') := by
  have hversion :
      (10 : CodeUnit) ∉ js "v" ++ (naturalDigits signatureSchemeVersion).map digitUnit := by
    decide
  have hfront (e : JsString) (x : Number) (he : (10 : CodeUnit) ∉ e) :
      ∀ p ∈ [js "v" ++ (naturalDigits signatureSchemeVersion).map digitUnit, e, x.toText],
        (10 : CodeUnit) ∉ p := by
    simp only [List.forall_mem_cons]
    exact ⟨hversion, he, (plain_toText x).no_newline, by simp⟩
  have hback (v : JsValue) : ∀ p ∈ [canonicalize (stripEnvelope v)], (10 : CodeUnit) ∉ p := by
    simp only [List.forall_mem_cons]
    exact ⟨(plain_canonicalize _).no_newline, by simp⟩
  have hjoined (e : JsString) (x : Number) (n : JsString) (v : JsValue) :
      signingMaterial e x n v = [10].intercalate
        ([js "v" ++ (naturalDigits signatureSchemeVersion).map digitUnit, e, x.toText] ++
          n :: [canonicalize (stripEnvelope v)]) := rfl
  rw [hjoined, hjoined] at h
  have hparts := intercalate_free_inj (by rfl) (by rfl) (hfront event t hevent)
    (hfront event' t' hevent') (hback payload) (hback payload') h
  simp only [List.cons.injEq, true_and, and_true] at hparts
  exact ⟨hparts.1.1, hparts.1.2, hparts.2.1, hparts.2.2⟩

/-- Two payloads that differ in the order of their keys, under a nonce with a
newline. -/
theorem signingMaterial_inj_reordered :
    js "command" = js "command" ∧ (Number.ofInt 7).toText = (Number.ofInt 7).toText ∧
      js "1\n2" = js "1\n2" ∧
      canonicalize (stripEnvelope (.obj [(js "a", .null), (js "b", .bool true)])) =
        canonicalize (stripEnvelope (.obj [(js "b", .bool true), (js "a", .null)])) :=
  signingMaterial_inj (by decide) (by decide) (by decide +kernel)

end OpticsAgent.Utility
