import Mathlib
import OpticsAgent.Node.Utf8

/-!
A text that is encoded and decoded again. A surrogate without its partner has no
UTF-8 form, so only a well-formed text comes back.
-/

namespace OpticsAgent.Node

open OpticsAgent.Ecma

/-! ## Well-formed text -/

/-- A code point that is no surrogate. -/
def Scalar (p : ℕ) : Prop := p < 0xD800 ∨ 0xE000 ≤ p ∧ p < 0x110000

/-- `s.isWellFormed()`: no surrogate of `s` is without its partner. -/
def isWellFormed : JsString → Bool
  | [] => true
  | [c] => !(isHighSurrogate c || isLowSurrogate c)
  | c :: d :: rest =>
      if isHighSurrogate c && isLowSurrogate d then isWellFormed rest
      else !(isHighSurrogate c || isLowSurrogate c) && isWellFormed (d :: rest)

/-! ## One code point -/

theorem decodeUtf8_last {seq : Partial} {b : Byte} (hb : seq.lower ≤ b.val ∧ b.val ≤ seq.upper)
    (hmissing : seq.missing = 1) (rest : List Byte) :
    decodeUtf8 (some seq) (b :: rest) =
      pointUnits (seq.bits * 0x40 + b.val % 0x40) ++ decodeUtf8 none rest := by
  rw [decodeUtf8, if_pos hb, if_pos hmissing]

theorem decodeUtf8_next {seq : Partial} {b : Byte} (hb : seq.lower ≤ b.val ∧ b.val ≤ seq.upper)
    (hmissing : seq.missing ≠ 1) (rest : List Byte) :
    decodeUtf8 (some seq) (b :: rest) =
      decodeUtf8 (some ⟨seq.missing - 1, 0x80, 0xBF, seq.bits * 0x40 + b.val % 0x40⟩) rest := by
  rw [decodeUtf8, if_pos hb, if_neg hmissing]

theorem utf8Text_lead {b : Byte} {seq : Partial} (h : leadByte b.val = ([], some seq))
    (rest : List Byte) : utf8Text (b :: rest) = decodeUtf8 (some seq) rest := by
  rw [utf8Text, decodeUtf8, h]
  rfl

theorem val_byte {n : ℕ} (h : n < 256) : (Fin.ofNat 256 n).val = n := Nat.mod_eq_of_lt h

/-- Decoding gives an encoded code point back. -/
theorem utf8Text_encodePoint {p : ℕ} (h : Scalar p) (rest : List Byte) :
    utf8Text (encodePoint p ++ rest) = pointUnits p ++ utf8Text rest := by
  unfold Scalar at h
  unfold encodePoint
  split_ifs with h1 h2 h3
  · have hval := val_byte (show p < 256 by omega)
    rw [pointUnits, if_pos (by omega), List.singleton_append,
      ← List.nil_append (Fin.ofNat 256 p :: rest), utf8Text_ascii [] (by omega), hval]
    rfl
  · have hlead : leadByte (0xC0 + p / 64) = ([], some ⟨1, 0x80, 0xBF, p / 64⟩) := by
      rw [leadByte, if_neg (by omega), if_neg (by omega), if_pos (by omega)]
      congr
      omega
    have hval1 := val_byte (show 0xC0 + p / 64 < 256 by omega)
    have hval2 := val_byte (show 0x80 + p % 64 < 256 by omega)
    rw [List.cons_append, List.singleton_append, utf8Text_lead (by rw [hval1, hlead]),
      decodeUtf8_last (by rw [hval2]; dsimp only; omega) rfl, hval2]
    congr
    dsimp only
    omega
  · have hlead : leadByte (0xE0 + p / 4096) = ([], some ⟨2,
        if 0xE0 + p / 4096 = 0xE0 then 0xA0 else 0x80,
        if 0xE0 + p / 4096 = 0xED then 0x9F else 0xBF, p / 4096⟩) := by
      rw [leadByte, if_neg (by omega), if_neg (by omega), if_neg (by omega), if_pos (by omega)]
      congr
      omega
    have hval1 := val_byte (show 0xE0 + p / 4096 < 256 by omega)
    have hval2 := val_byte (show 0x80 + p / 64 % 64 < 256 by omega)
    have hval3 := val_byte (show 0x80 + p % 64 < 256 by omega)
    have hrange : (if 0xE0 + p / 4096 = 0xE0 then 0xA0 else 0x80) ≤ 0x80 + p / 64 % 64 ∧
        0x80 + p / 64 % 64 ≤ if 0xE0 + p / 4096 = 0xED then 0x9F else 0xBF := by
      split_ifs <;> omega
    rw [List.cons_append, List.cons_append, List.singleton_append,
      utf8Text_lead (by rw [hval1, hlead]), decodeUtf8_next (by rw [hval2]; exact hrange) (by simp),
      decodeUtf8_last (by rw [hval3]; dsimp only; omega) rfl, hval2, hval3]
    congr
    dsimp only
    omega
  · have hlead : leadByte (0xF0 + p / 262144) = ([], some ⟨3,
        if 0xF0 + p / 262144 = 0xF0 then 0x90 else 0x80,
        if 0xF0 + p / 262144 = 0xF4 then 0x8F else 0xBF, p / 262144⟩) := by
      rw [leadByte, if_neg (by omega), if_neg (by omega), if_neg (by omega), if_neg (by omega),
        if_pos (by omega)]
      congr
      omega
    have hval1 := val_byte (show 0xF0 + p / 262144 < 256 by omega)
    have hval2 := val_byte (show 0x80 + p / 4096 % 64 < 256 by omega)
    have hval3 := val_byte (show 0x80 + p / 64 % 64 < 256 by omega)
    have hval4 := val_byte (show 0x80 + p % 64 < 256 by omega)
    have hrange : (if 0xF0 + p / 262144 = 0xF0 then 0x90 else 0x80) ≤ 0x80 + p / 4096 % 64 ∧
        0x80 + p / 4096 % 64 ≤ if 0xF0 + p / 262144 = 0xF4 then 0x8F else 0xBF := by
      split_ifs <;> omega
    rw [List.cons_append, List.cons_append, List.cons_append, List.singleton_append,
      utf8Text_lead (by rw [hval1, hlead]), decodeUtf8_next (by rw [hval2]; exact hrange) (by simp),
      decodeUtf8_next (by rw [hval3]; dsimp only; omega) (by simp),
      decodeUtf8_last (by rw [hval4]; dsimp only; omega) rfl, hval2, hval3, hval4]
    congr
    dsimp only
    omega

/-! ## A text -/

theorem scalar_unit {c : CodeUnit} :
    Scalar (if isHighSurrogate c || isLowSurrogate c then 0xFFFD else c.val) := by
  unfold Scalar isHighSurrogate isLowSurrogate
  have hc := c.isLt
  split_ifs with h
  · omega
  · simp only [Bool.or_eq_true, Bool.and_eq_true, decide_eq_true_eq] at h
    omega

theorem scalar_pair {c d : CodeUnit} (h : (isHighSurrogate c && isLowSurrogate d) = true) :
    Scalar (0x10000 + (c.val - 0xD800) * 0x400 + (d.val - 0xDC00)) := by
  simp only [isHighSurrogate, isLowSurrogate, Bool.and_eq_true, decide_eq_true_eq] at h
  unfold Scalar
  omega

theorem scalar_of_mem_codePoints {s : JsString} : ∀ p ∈ codePoints s, Scalar p := by
  fun_induction codePoints s with
  | case1 => simp
  | case2 c => simpa using scalar_unit
  | case3 c d rest h ih => exact List.forall_mem_cons.mpr ⟨scalar_pair h, ih⟩
  | case4 c d rest h ih => exact List.forall_mem_cons.mpr ⟨scalar_unit, ih⟩

/-- What comes back is the code points' units. -/
theorem utf8Text_utf8Bytes (s : JsString) :
    utf8Text (utf8Bytes s) = (codePoints s).flatMap pointUnits := by
  have hpoints : ∀ points : List ℕ, (∀ p ∈ points, Scalar p) →
      utf8Text (points.flatMap encodePoint) = points.flatMap pointUnits := by
    intro points
    induction points with
    | nil => exact fun _ => rfl
    | cons p points ih =>
        intro hall
        obtain ⟨hp, hrest⟩ := List.forall_mem_cons.mp hall
        rw [List.flatMap_cons, utf8Text_encodePoint hp, ih hrest, List.flatMap_cons]
  exact hpoints _ scalar_of_mem_codePoints

theorem pointUnits_unit {c : CodeUnit} (h : (isHighSurrogate c || isLowSurrogate c) = false) :
    pointUnits (if isHighSurrogate c || isLowSurrogate c then 0xFFFD else c.val) = [c] := by
  rw [if_neg (by simp [h]), pointUnits, if_pos c.isLt]
  exact congrArg (· :: []) (Fin.ext (Nat.mod_eq_of_lt c.isLt))

theorem pointUnits_pair {c d : CodeUnit} (h : (isHighSurrogate c && isLowSurrogate d) = true) :
    pointUnits (0x10000 + (c.val - 0xD800) * 0x400 + (d.val - 0xDC00)) = [c, d] := by
  simp only [isHighSurrogate, isLowSurrogate, Bool.and_eq_true, decide_eq_true_eq] at h
  have hhigh : Fin.ofNat 65536
      (0xD800 + (0x10000 + (c.val - 0xD800) * 0x400 + (d.val - 0xDC00) - 0x10000) / 0x400) = c := by
    apply Fin.ext
    rw [Fin.val_ofNat]
    omega
  have hlow : Fin.ofNat 65536
      (0xDC00 + (0x10000 + (c.val - 0xD800) * 0x400 + (d.val - 0xDC00)) % 0x400) = d := by
    apply Fin.ext
    rw [Fin.val_ofNat]
    omega
  rw [pointUnits, if_neg (by omega), hhigh, hlow]

/-- A unit that is no surrogate stands between two texts. -/
theorem isWellFormed_append_cons {c : CodeUnit}
    (hc : (isHighSurrogate c || isLowSurrogate c) = false) (xs ys : JsString) :
    isWellFormed (xs ++ c :: ys) = (isWellFormed xs && isWellFormed ys) := by
  obtain ⟨hhigh, hlow⟩ := Bool.or_eq_false_iff.mp hc
  have hcons : isWellFormed (c :: ys) = isWellFormed ys := by
    cases ys <;> simp [isWellFormed, hhigh, hlow]
  fun_induction isWellFormed xs with
  | case1 => rw [List.nil_append, hcons, Bool.true_and]
  | case2 x =>
      rw [List.singleton_append, isWellFormed, if_neg (by simp [hlow]), hcons]
  | case3 x d rest hpair ih =>
      rw [List.cons_append, List.cons_append, isWellFormed, if_pos hpair, ih]
  | case4 x d rest hpair ih =>
      rw [List.cons_append, List.cons_append, isWellFormed, if_neg hpair, ← List.cons_append, ih,
        Bool.and_assoc]

theorem isWellFormed_of_ascii {s : JsString} (h : ∀ c ∈ s, c.val < 0x80) :
    isWellFormed s = true := by
  induction s with
  | nil => rfl
  | cons c s ih =>
      obtain ⟨hc, hs⟩ := List.forall_mem_cons.mp h
      have hunit : (isHighSurrogate c || isLowSurrogate c) = false := by
        simp only [isHighSurrogate, isLowSurrogate, Bool.or_eq_false_iff, Bool.and_eq_false_iff,
          decide_eq_false_iff_not]
        omega
      have hsplit := isWellFormed_append_cons hunit [] s
      rw [List.nil_append, ih hs] at hsplit
      exact hsplit

theorem isWellFormed_pointUnits {p : ℕ} (h : Scalar p) (rest : JsString) :
    isWellFormed (pointUnits p ++ rest) = isWellFormed rest := by
  unfold Scalar at h
  unfold pointUnits
  split_ifs with hp
  · have hval : (Fin.ofNat 65536 p).val = p := Nat.mod_eq_of_lt hp
    have hunit : (isHighSurrogate (Fin.ofNat 65536 p) || isLowSurrogate (Fin.ofNat 65536 p)) =
        false := by
      simp only [isHighSurrogate, isLowSurrogate, hval, Bool.or_eq_false_iff,
        Bool.and_eq_false_iff, decide_eq_false_iff_not]
      omega
    exact (isWellFormed_append_cons hunit [] rest).trans (Bool.true_and _)
  · have hpair : (isHighSurrogate (Fin.ofNat 65536 (0xD800 + (p - 0x10000) / 0x400)) &&
        isLowSurrogate (Fin.ofNat 65536 (0xDC00 + p % 0x400))) = true := by
      simp only [isHighSurrogate, isLowSurrogate, Fin.val_ofNat, Bool.and_eq_true,
        decide_eq_true_eq]
      omega
    rw [List.cons_append, List.singleton_append, isWellFormed, if_pos hpair]

/-- What is decoded from an encoded text is well formed. -/
theorem isWellFormed_decoded (s : JsString) : isWellFormed (utf8Text (utf8Bytes s)) = true := by
  have hpoints : ∀ points : List ℕ, (∀ p ∈ points, Scalar p) →
      isWellFormed (points.flatMap pointUnits) = true := by
    intro points
    induction points with
    | nil => exact fun _ => rfl
    | cons p points ih =>
        intro hall
        obtain ⟨hp, hrest⟩ := List.forall_mem_cons.mp hall
        rw [List.flatMap_cons, isWellFormed_pointUnits hp, ih hrest]
  rw [utf8Text_utf8Bytes]
  exact hpoints _ scalar_of_mem_codePoints

/-- A well-formed text survives its UTF-8 form. -/
theorem utf8Text_utf8Bytes_of_wellFormed {s : JsString} (h : isWellFormed s = true) :
    utf8Text (utf8Bytes s) = s := by
  rw [utf8Text_utf8Bytes]
  fun_induction codePoints s with
  | case1 => rfl
  | case2 c =>
      rw [List.flatMap_singleton, pointUnits_unit (by simpa [isWellFormed] using h)]
  | case3 c d rest hpair ih =>
      rw [isWellFormed, if_pos hpair] at h
      rw [List.flatMap_cons, pointUnits_pair hpair, ih h]
      rfl
  | case4 c d rest hpair ih =>
      rw [isWellFormed, if_neg hpair, Bool.and_eq_true, Bool.not_eq_true'] at h
      rw [List.flatMap_cons, pointUnits_unit h.1, ih h.2]
      rfl

/-- Joined by a unit that is no surrogate, texts are well formed when each of
them is. -/
theorem isWellFormed_intercalate {c : CodeUnit}
    (hc : (isHighSurrogate c || isLowSurrogate c) = false) (parts : List JsString) :
    isWellFormed ([c].intercalate parts) = true ↔ ∀ part ∈ parts, isWellFormed part = true := by
  induction parts with
  | nil => simp [isWellFormed]
  | cons part rest ih =>
      rw [List.forall_mem_cons]
      cases rest with
      | nil => simp
      | cons next more =>
          rw [List.intercalate_cons_cons, List.append_assoc, List.singleton_append,
            isWellFormed_append_cons hc, Bool.and_eq_true, ih]

end OpticsAgent.Node
