import Mathlib
import OpticsAgent.Node.Buffer

/-!
HMAC-SHA256 and SHA-1, as Node's `crypto` computes them.
-/

namespace OpticsAgent.Node

namespace Sha256

abbrev Word := BitVec 32

def roundConstants : List Word :=
  [0x428a2f98, 0x71374491, 0xb5c0fbcf, 0xe9b5dba5, 0x3956c25b, 0x59f111f1, 0x923f82a4, 0xab1c5ed5,
    0xd807aa98, 0x12835b01, 0x243185be, 0x550c7dc3, 0x72be5d74, 0x80deb1fe, 0x9bdc06a7, 0xc19bf174,
    0xe49b69c1, 0xefbe4786, 0x0fc19dc6, 0x240ca1cc, 0x2de92c6f, 0x4a7484aa, 0x5cb0a9dc, 0x76f988da,
    0x983e5152, 0xa831c66d, 0xb00327c8, 0xbf597fc7, 0xc6e00bf3, 0xd5a79147, 0x06ca6351, 0x14292967,
    0x27b70a85, 0x2e1b2138, 0x4d2c6dfc, 0x53380d13, 0x650a7354, 0x766a0abb, 0x81c2c92e, 0x92722c85,
    0xa2bfe8a1, 0xa81a664b, 0xc24b8b70, 0xc76c51a3, 0xd192e819, 0xd6990624, 0xf40e3585, 0x106aa070,
    0x19a4c116, 0x1e376c08, 0x2748774c, 0x34b0bcb5, 0x391c0cb3, 0x4ed8aa4a, 0x5b9cca4f, 0x682e6ff3,
    0x748f82ee, 0x78a5636f, 0x84c87814, 0x8cc70208, 0x90befffa, 0xa4506ceb, 0xbef9a3f7, 0xc67178f2]

structure Chain where
  a : Word
  b : Word
  c : Word
  d : Word
  e : Word
  f : Word
  g : Word
  h : Word

def initial : Chain :=
  ⟨0x6a09e667, 0xbb67ae85, 0x3c6ef372, 0xa54ff53a, 0x510e527f, 0x9b05688c, 0x1f83d9ab, 0x5be0cd19⟩

def round (s : Chain) (k w : Word) : Chain :=
  let s1 := s.e.rotateRight 6 ^^^ s.e.rotateRight 11 ^^^ s.e.rotateRight 25
  let ch := (s.e &&& s.f) ^^^ (~~~s.e &&& s.g)
  let temp1 := s.h + s1 + ch + k + w
  let s0 := s.a.rotateRight 2 ^^^ s.a.rotateRight 13 ^^^ s.a.rotateRight 22
  let maj := (s.a &&& s.b) ^^^ (s.a &&& s.c) ^^^ (s.b &&& s.c)
  ⟨temp1 + (s0 + maj), s.a, s.b, s.c, s.d + temp1, s.e, s.f, s.g⟩

/-- The next word of the schedule, from the words so far, newest first. -/
def scheduleNext (newest : List Word) : Word :=
  let x := newest.getD 14 0
  let y := newest.getD 1 0
  let s0 := x.rotateRight 7 ^^^ x.rotateRight 18 ^^^ x >>> 3
  let s1 := y.rotateRight 17 ^^^ y.rotateRight 19 ^^^ y >>> 10
  newest.getD 15 0 + s0 + newest.getD 6 0 + s1

def schedule (block : List Word) : List Word :=
  ((List.range 48).foldl (fun newest _ => scheduleNext newest :: newest) block.reverse).reverse

def compress (s : Chain) (block : List Word) : Chain :=
  let t := (roundConstants.zip (schedule block)).foldl (fun t p => round t p.1 p.2) s
  ⟨s.a + t.a, s.b + t.b, s.c + t.c, s.d + t.d, s.e + t.e, s.f + t.f, s.g + t.g, s.h + t.h⟩

def wordBytes (w : Word) : List Byte :=
  [24, 16, 8, 0].map fun shift => Fin.ofNat 256 (w.toNat / 2 ^ shift)

def bytesWords : List Byte → List Word
  | x :: y :: z :: w :: rest =>
      BitVec.ofNat 32 (((x.val * 256 + y.val) * 256 + z.val) * 256 + w.val) :: bytesWords rest
  | _ => []

def pad (message : List Byte) : List Byte :=
  let zeros := (119 - message.length % 64) % 64
  let bits := 8 * message.length
  message ++ 0x80 :: List.replicate zeros 0 ++
    [56, 48, 40, 32, 24, 16, 8, 0].map fun shift => Fin.ofNat 256 (bits / 2 ^ shift)

def compressAll (blocks : ℕ) (s : Chain) (words : List Word) : Chain :=
  match blocks with
  | 0 => s
  | n + 1 => compressAll n (compress s (words.take 16)) (words.drop 16)

def hash (message : List Byte) : List Byte :=
  let padded := pad message
  let s := compressAll (padded.length / 64) initial (bytesWords padded)
  [s.a, s.b, s.c, s.d, s.e, s.f, s.g, s.h].flatMap wordBytes

end Sha256

/-- `createHmac('sha256', key).update(message).digest()`. -/
def hmacSha256 (key message : List Byte) : List Byte :=
  let short := if key.length > 64 then Sha256.hash key else key
  let block := short ++ List.replicate (64 - short.length) 0
  let inner := Sha256.hash (block.map (fun b => Fin.ofNat 256 (b.val ^^^ 0x36)) ++ message)
  Sha256.hash (block.map (fun b => Fin.ofNat 256 (b.val ^^^ 0x5c)) ++ inner)

theorem length_hmacSha256 (key message : List Byte) : (hmacSha256 key message).length = 32 :=
  rfl

namespace Sha1

structure Chain where
  a : Sha256.Word
  b : Sha256.Word
  c : Sha256.Word
  d : Sha256.Word
  e : Sha256.Word

def initial : Chain := ⟨0x67452301, 0xefcdab89, 0x98badcfe, 0x10325476, 0xc3d2e1f0⟩

/-- The function and the constant of round `t`. -/
def mix (t : ℕ) (b c d : Sha256.Word) : Sha256.Word × Sha256.Word :=
  if t < 20 then ((b &&& c) ||| (~~~b &&& d), 0x5a827999)
  else if t < 40 then (b ^^^ c ^^^ d, 0x6ed9eba1)
  else if t < 60 then ((b &&& c) ||| (b &&& d) ||| (c &&& d), 0x8f1bbcdc)
  else (b ^^^ c ^^^ d, 0xca62c1d6)

def round (s : Chain) (t : ℕ) (w : Sha256.Word) : Chain :=
  let (f, k) := mix t s.b s.c s.d
  ⟨s.a.rotateLeft 5 + f + s.e + k + w, s.a, s.b.rotateLeft 30, s.c, s.d⟩

/-- The words of the schedule, from the words so far, newest first. -/
def schedule (block : List Sha256.Word) : List Sha256.Word :=
  ((List.range 64).foldl (fun newest _ =>
    (newest.getD 2 0 ^^^ newest.getD 7 0 ^^^ newest.getD 13 0 ^^^ newest.getD 15 0).rotateLeft 1 ::
      newest) block.reverse).reverse

def compress (s : Chain) (block : List Sha256.Word) : Chain :=
  let r := ((List.range 80).zip (schedule block)).foldl (fun r p => round r p.1 p.2) s
  ⟨s.a + r.a, s.b + r.b, s.c + r.c, s.d + r.d, s.e + r.e⟩

def compressAll (blocks : ℕ) (s : Chain) (words : List Sha256.Word) : Chain :=
  match blocks with
  | 0 => s
  | n + 1 => compressAll n (compress s (words.take 16)) (words.drop 16)

/-- `createHash('sha1').update(message).digest()`; the padding is that of
SHA-256. -/
def hash (message : List Byte) : List Byte :=
  let padded := Sha256.pad message
  let s := compressAll (padded.length / 64) initial (Sha256.bytesWords padded)
  [s.a, s.b, s.c, s.d, s.e].flatMap Sha256.wordBytes

end Sha1

end OpticsAgent.Node
