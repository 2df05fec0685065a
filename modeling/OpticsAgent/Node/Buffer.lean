import Mathlib
import OpticsAgent.Ecma.Text

/-!
The encodings of Node's `Buffer` the agent uses: `utf8` and `hex`, in both
directions.
-/

namespace OpticsAgent.Node

open OpticsAgent.Ecma

abbrev Byte := Fin 256

instance neZero_bytes : NeZero 256 := ⟨by decide⟩

def isNewline (b : Byte) : Bool := b == 10

/-- The code points of a string; a lone surrogate is replaced by U+FFFD. -/
def codePoints : JsString → List ℕ
  | [] => []
  | [c] => [if isHighSurrogate c || isLowSurrogate c then 0xFFFD else c.val]
  | c :: d :: rest =>
      if isHighSurrogate c && isLowSurrogate d then
        (0x10000 + (c.val - 0xD800) * 0x400 + (d.val - 0xDC00)) :: codePoints rest
      else
        (if isHighSurrogate c || isLowSurrogate c then 0xFFFD else c.val) ::
          codePoints (d :: rest)

def encodePoint (p : ℕ) : List Byte :=
  if p < 0x80 then [Fin.ofNat 256 p]
  else if p < 0x800 then [Fin.ofNat 256 (0xC0 + p / 64), Fin.ofNat 256 (0x80 + p % 64)]
  else if p < 0x10000 then
    [Fin.ofNat 256 (0xE0 + p / 4096), Fin.ofNat 256 (0x80 + p / 64 % 64),
      Fin.ofNat 256 (0x80 + p % 64)]
  else
    [Fin.ofNat 256 (0xF0 + p / 262144), Fin.ofNat 256 (0x80 + p / 4096 % 64),
      Fin.ofNat 256 (0x80 + p / 64 % 64), Fin.ofNat 256 (0x80 + p % 64)]

/-- `Buffer.from(s, 'utf8')`. -/
def utf8Bytes (s : JsString) : List Byte :=
  (codePoints s).flatMap encodePoint

/-- `buffer.toString('hex')`. -/
def hexText (bytes : List Byte) : JsString :=
  bytes.flatMap fun b => [hexUnit (Fin.ofNat 16 (b.val / 16)), hexUnit (Fin.ofNat 16 b.val)]

/-- `Buffer.from(s, 'hex')`: decoding stops at the first pair that is not
hexadecimal, and a last odd digit is dropped. -/
def hexBytes : JsString → List Byte
  | high :: low :: rest =>
      match hexValue? high, hexValue? low with
      | some h, some l => Fin.ofNat 256 (16 * h.val + l.val) :: hexBytes rest
      | _, _ => []
  | _ => []

theorem hexBytes_hexText (bytes : List Byte) : hexBytes (hexText bytes) = bytes := by
  induction bytes with
  | nil => rfl
  | cons b rest ih =>
      have hbyte : Fin.ofNat 256 (16 * (Fin.ofNat 16 (b.val / 16)).val +
          (Fin.ofNat 16 b.val).val) = b := by
        apply Fin.ext
        have hb := b.isLt
        simp only [Fin.ofNat]
        omega
      have hcons : hexText (b :: rest) = hexUnit (Fin.ofNat 16 (b.val / 16)) ::
          hexUnit (Fin.ofNat 16 b.val) :: hexText rest := rfl
      rw [hcons, hexBytes, hexValue?_hexUnit, hexValue?_hexUnit]
      exact congrArg₂ List.cons hbyte ih

/-! ## Decoding -/

/-- A multi-byte sequence in progress: the continuation bytes still missing,
the range the next one must lie in, and the bits so far. -/
structure Partial where
  missing : ℕ
  lower : ℕ
  upper : ℕ
  bits : ℕ

/-- The UTF-16 units of a code point. -/
def pointUnits (p : ℕ) : JsString :=
  if p < 0x10000 then [Fin.ofNat _ p]
  else [Fin.ofNat _ (0xD800 + (p - 0x10000) / 0x400), Fin.ofNat _ (0xDC00 + p % 0x400)]

/-- A byte that starts a sequence: the units it yields at once, or the sequence
it opens. -/
def leadByte (b : ℕ) : JsString × Option Partial :=
  if b < 0x80 then ([Fin.ofNat _ b], none)
  else if b < 0xC2 then ([0xFFFD], none)
  else if b < 0xE0 then ([], some ⟨1, 0x80, 0xBF, b % 0x20⟩)
  else if b < 0xF0 then
    ([], some ⟨2, if b = 0xE0 then 0xA0 else 0x80, if b = 0xED then 0x9F else 0xBF, b % 0x10⟩)
  else if b < 0xF5 then
    ([], some ⟨3, if b = 0xF0 then 0x90 else 0x80, if b = 0xF4 then 0x8F else 0xBF, b % 0x08⟩)
  else ([0xFFFD], none)

/-- A sequence that breaks off is replaced by one U+FFFD, and the byte that
broke it starts anew. -/
def decodeUtf8 : Option Partial → List Byte → JsString
  | none, [] => []
  | some _, [] => [0xFFFD]
  | none, b :: rest => (leadByte b.val).1 ++ decodeUtf8 (leadByte b.val).2 rest
  | some seq, b :: rest =>
      if seq.lower ≤ b.val ∧ b.val ≤ seq.upper then
        let bits := seq.bits * 0x40 + b.val % 0x40
        if seq.missing = 1 then pointUnits bits ++ decodeUtf8 none rest
        else decodeUtf8 (some ⟨seq.missing - 1, 0x80, 0xBF, bits⟩) rest
      else 0xFFFD :: (leadByte b.val).1 ++ decodeUtf8 (leadByte b.val).2 rest

/-- `buffer.toString('utf8')`. -/
def utf8Text (bytes : List Byte) : JsString := decodeUtf8 none bytes

/-- A truncated sequence, a stray continuation byte and a four-byte sequence. -/
example : utf8Text [0xE2, 0x82, 0x41, 0x80, 0xF0, 0x9F, 0x98, 0x80] =
    [0xFFFD, 0x41, 0xFFFD, 0xD83D, 0xDE00] := by
  decide

end OpticsAgent.Node
