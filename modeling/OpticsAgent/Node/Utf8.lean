import Mathlib
import OpticsAgent.Node.Buffer

/-!
Decoding the two sides of a cut. What is decoded before the cut stays as it is;
only a sequence in progress at the cut is lost, and then both sides show a
replacement character at the cut.
-/

namespace OpticsAgent.Node

open OpticsAgent.Ecma

/-- The units decided by the bytes so far, and the sequence still open. -/
def decodeFront : Option Partial → List Byte → JsString × Option Partial
  | st, [] => ([], st)
  | none, b :: rest =>
      let (front, st) := decodeFront (leadByte b.val).2 rest
      ((leadByte b.val).1 ++ front, st)
  | some seq, b :: rest =>
      if seq.lower ≤ b.val ∧ b.val ≤ seq.upper then
        let bits := seq.bits * 0x40 + b.val % 0x40
        if seq.missing = 1 then
          let (front, st) := decodeFront none rest
          (pointUnits bits ++ front, st)
        else decodeFront (some ⟨seq.missing - 1, 0x80, 0xBF, bits⟩) rest
      else
        let (front, st) := decodeFront (leadByte b.val).2 rest
        (0xFFFD :: (leadByte b.val).1 ++ front, st)

theorem decodeUtf8_append (st : Option Partial) (xs ys : List Byte) :
    decodeUtf8 st (xs ++ ys) = (decodeFront st xs).1 ++ decodeUtf8 (decodeFront st xs).2 ys := by
  induction xs generalizing st with
  | nil => cases st <;> rfl
  | cons b rest ih =>
      cases st with
      | none => simp [decodeUtf8, decodeFront, ih]
      | some seq =>
          simp only [List.cons_append, decodeUtf8, decodeFront]
          split_ifs <;> simp [ih]

/-- The next byte of a sequence in progress lies in the range of continuation
bytes. -/
def Continues (st : Option Partial) : Prop :=
  ∀ seq, st = some seq → 0x80 ≤ seq.lower ∧ seq.upper ≤ 0xBF

theorem leadByte_continues (b : ℕ) : Continues (leadByte b).2 := by
  unfold leadByte
  split_ifs <;> rintro seq ⟨⟩ <;> constructor <;> norm_num

theorem decodeFront_continues {st : Option Partial} (h : Continues st) (xs : List Byte) :
    Continues (decodeFront st xs).2 := by
  induction xs generalizing st with
  | nil => cases st <;> exact h
  | cons b rest ih =>
      cases st with
      | none => exact ih (leadByte_continues b.val)
      | some seq =>
          simp only [decodeFront]
          split_ifs
          · exact ih (by rintro seq ⟨⟩)
          · exact ih (by rintro seq ⟨⟩; exact ⟨le_refl _, le_refl _⟩)
          · exact ih (leadByte_continues b.val)

/-- A sequence in progress goes on, or a new start puts U+FFFD in its place. -/
theorem decodeUtf8_some {seq : Partial} (h : Continues (some seq)) (ys : List Byte) :
    decodeUtf8 (some seq) ys = 0xFFFD :: decodeUtf8 none ys ∨
      ∃ back, decodeUtf8 none ys = 0xFFFD :: back := by
  cases ys with
  | nil => exact Or.inl rfl
  | cons b rest =>
      obtain ⟨hlower, hupper⟩ := h seq rfl
      by_cases hb : seq.lower ≤ b.val ∧ b.val ≤ seq.upper
      · have hlead : leadByte b.val = ([0xFFFD], none) := by
          rw [leadByte, if_neg (by omega), if_pos (by omega)]
        exact Or.inr ⟨_, by rw [decodeUtf8, hlead]; rfl⟩
      · exact Or.inl (by simp [decodeUtf8, hb])

/-- The two sides of a cut, each decoded on its own. -/
theorem utf8Text_append (xs ys : List Byte) :
    utf8Text (xs ++ ys) = utf8Text xs ++ utf8Text ys ∨
      (∃ front, utf8Text xs = front ++ [0xFFFD]) ∧ ∃ back, utf8Text ys = 0xFFFD :: back := by
  have hsplit := decodeUtf8_append none xs ys
  have hleft := decodeUtf8_append none xs []
  have hcontinues := decodeFront_continues (show Continues none by rintro seq ⟨⟩) xs
  rw [List.append_nil] at hleft
  unfold utf8Text
  cases hstate : (decodeFront none xs).2 with
  | none =>
      rw [hstate] at hsplit hleft
      exact Or.inl (by rw [hsplit, hleft]; simp [decodeUtf8])
  | some seq =>
      rw [hstate] at hsplit hleft hcontinues
      rcases decodeUtf8_some hcontinues ys with heq | hback
      · exact Or.inl (by rw [hsplit, hleft, heq]; simp [decodeUtf8])
      · exact Or.inr ⟨⟨_, hleft⟩, hback⟩

/-- An ASCII byte stands for itself wherever it is. -/
theorem utf8Text_ascii (xs : List Byte) {b : Byte} (hb : b.val < 0x80) (ys : List Byte) :
    utf8Text (xs ++ b :: ys) = utf8Text xs ++ Fin.ofNat _ b.val :: utf8Text ys := by
  have hhead : utf8Text (b :: ys) = Fin.ofNat _ b.val :: utf8Text ys := by
    rw [utf8Text, decodeUtf8, leadByte, if_pos hb]
    rfl
  rcases utf8Text_append xs (b :: ys) with heq | ⟨-, back, hback⟩
  · rw [heq, hhead]
  · rw [hhead] at hback
    have hval := congrArg Fin.val (List.cons.inj hback).1
    simp only [Fin.val_ofNat] at hval
    rw [Nat.mod_eq_of_lt (by omega)] at hval
    have hfffd : ((0xFFFD : CodeUnit) : ℕ) = 0xFFFD := rfl
    omega

/-! ## ASCII units come from ASCII bytes -/

/-- A sequence in progress that cannot end in an ASCII code point. -/
structure BeyondAscii (seq : Partial) : Prop where
  lower : 0x80 ≤ seq.lower
  upper : seq.upper ≤ 0xBF
  one : seq.missing = 1 → 0x80 ≤ seq.bits * 64 + (seq.lower - 0x80) ∧ seq.bits < 2 ^ 15
  two : seq.missing = 2 → 2 ≤ seq.bits * 64 + (seq.lower - 0x80) ∧ seq.bits < 2 ^ 9
  three : seq.missing = 3 → 1 ≤ seq.bits * 64 + (seq.lower - 0x80) ∧ seq.bits < 2 ^ 3
  missing : 1 ≤ seq.missing ∧ seq.missing ≤ 3

theorem leadByte_beyondAscii {b : ℕ} (hb : b < 256) {seq : Partial}
    (h : (leadByte b).2 = some seq) : BeyondAscii seq := by
  unfold leadByte at h
  split_ifs at h
  all_goals
    obtain rfl := Option.some.inj h
    constructor <;> simp
    omega

theorem BeyondAscii.next {seq : Partial} (h : BeyondAscii seq) {b : ℕ}
    (hb : seq.lower ≤ b ∧ b ≤ seq.upper) (hmissing : seq.missing ≠ 1) :
    BeyondAscii ⟨seq.missing - 1, 0x80, 0xBF, seq.bits * 0x40 + b % 0x40⟩ := by
  obtain ⟨hlower, hupper, -, htwo, hthree, hrange⟩ := h
  rcases (by omega : seq.missing = 2 ∨ seq.missing = 3) with hm | hm
  · obtain ⟨hmin, hmax⟩ := htwo hm
    constructor <;> simp [hm]
    omega
  · obtain ⟨hmin, hmax⟩ := hthree hm
    constructor <;> simp [hm]
    omega

theorem pointUnits_beyondAscii {p : ℕ} (h : 0x80 ≤ p ∧ p < 2 ^ 21) {c : CodeUnit}
    (hc : c ∈ pointUnits p) : 0x80 ≤ c.val := by
  unfold pointUnits at hc
  split_ifs at hc with hp
  · obtain rfl := List.mem_singleton.mp hc
    simp only [Fin.val_ofNat]
    omega
  · simp only [List.mem_cons, List.not_mem_nil, or_false] at hc
    rcases hc with rfl | rfl <;> simp only [Fin.val_ofNat] <;> omega

theorem leadByte_units (b : ℕ) : (leadByte b).1 = [] ∨ (leadByte b).1 = [0xFFFD] ∨
    b < 0x80 ∧ (leadByte b).1 = [Fin.ofNat _ b] := by
  unfold leadByte
  split_ifs with h1 <;> simp [h1]

theorem leadByte_ascii {b : ℕ} {c : CodeUnit} (hc : c ∈ (leadByte b).1)
    (hascii : c.val < 0x80) : b = c.val := by
  rcases leadByte_units b with hnil | hfffd | ⟨hb, hunit⟩
  · rw [hnil] at hc
    cases hc
  · rw [hfffd] at hc
    obtain rfl := List.mem_singleton.mp hc
    exact absurd hascii (by decide)
  · rw [hunit] at hc
    obtain rfl := List.mem_singleton.mp hc
    simp only [Fin.val_ofNat]
    omega

theorem mem_decodeUtf8 {st : Option Partial} (hst : ∀ seq, st = some seq → BeyondAscii seq)
    {xs : List Byte} {c : CodeUnit} (hc : c ∈ decodeUtf8 st xs) (hascii : c.val < 0x80) :
    ∃ b ∈ xs, b.val = c.val := by
  have hreplacement : c ≠ 0xFFFD := by
    rintro rfl
    exact absurd hascii (by decide)
  induction xs generalizing st with
  | nil =>
      cases st with
      | none => cases hc
      | some seq => exact absurd (List.mem_singleton.mp hc) hreplacement
  | cons b rest ih =>
      have hlead : c ∈ (leadByte b.val).1 ++ decodeUtf8 (leadByte b.val).2 rest →
          ∃ d ∈ b :: rest, d.val = c.val := by
        intro hmem
        rcases List.mem_append.mp hmem with hunit | htail
        · exact ⟨b, List.mem_cons_self, leadByte_ascii hunit hascii⟩
        · obtain ⟨d, hd, heq⟩ := ih (fun seq h => leadByte_beyondAscii b.isLt h) htail
          exact ⟨d, List.mem_cons_of_mem b hd, heq⟩
      cases st with
      | none => exact hlead hc
      | some seq =>
          have hseq := hst seq rfl
          by_cases hb : seq.lower ≤ b.val ∧ b.val ≤ seq.upper
          · simp only [decodeUtf8, if_pos hb] at hc
            split_ifs at hc with hmissing
            · rcases List.mem_append.mp hc with hunit | htail
              · obtain ⟨hmin, hmax⟩ := hseq.one hmissing
                have hlower := hseq.lower
                have hupper := hseq.upper
                have hpoint := pointUnits_beyondAscii (by omega) hunit
                omega
              · obtain ⟨d, hd, heq⟩ := ih (by rintro seq ⟨⟩) htail
                exact ⟨d, List.mem_cons_of_mem b hd, heq⟩
            · obtain ⟨d, hd, heq⟩ := ih (by rintro _ ⟨⟩; exact hseq.next hb hmissing) hc
              exact ⟨d, List.mem_cons_of_mem b hd, heq⟩
          · simp only [decodeUtf8, if_neg hb, List.cons_append] at hc
            rcases List.mem_cons.mp hc with hfffd | hmem
            · exact absurd hfffd hreplacement
            · exact hlead hmem

theorem mem_utf8Text {xs : List Byte} {c : CodeUnit} (hc : c ∈ utf8Text xs)
    (hascii : c.val < 0x80) : ∃ b ∈ xs, b.val = c.val := by
  exact mem_decodeUtf8 (by rintro seq ⟨⟩) hc hascii

/-! ## Cuts and ends -/

/-- Behind a text that does not end in a replacement character, decoding starts
afresh. -/
theorem utf8Text_append_of_ends {xs : List Byte} {front : JsString} {c : CodeUnit}
    (h : utf8Text xs = front ++ [c]) (hc : c ≠ 0xFFFD) (ys : List Byte) :
    utf8Text (xs ++ ys) = utf8Text xs ++ utf8Text ys := by
  rcases utf8Text_append xs ys with heq | ⟨⟨front', hfront⟩, -⟩
  · exact heq
  · have hlast := (List.append_inj' (h.symm.trans hfront) rfl).2
    exact absurd (List.cons.inj hlast).1 hc

theorem decodeUtf8_some_head {seq : Partial} (h : BeyondAscii seq) (xs : List Byte) :
    ∃ u rest, decodeUtf8 (some seq) xs = u :: rest ∧ 0x80 ≤ u.val := by
  induction xs generalizing seq with
  | nil => exact ⟨0xFFFD, [], rfl, by decide⟩
  | cons b xs ih =>
      by_cases hb : seq.lower ≤ b.val ∧ b.val ≤ seq.upper
      · by_cases hmissing : seq.missing = 1
        · obtain ⟨hmin, hmax⟩ := h.one hmissing
          have hlower := h.lower
          have hupper := h.upper
          have hpoint : 0x80 ≤ seq.bits * 0x40 + b.val % 0x40 ∧
              seq.bits * 0x40 + b.val % 0x40 < 2 ^ 21 := by omega
          have hne : pointUnits (seq.bits * 0x40 + b.val % 0x40) ≠ [] := by
            unfold pointUnits
            split_ifs <;> simp
          obtain ⟨u, units, hunits⟩ := List.exists_cons_of_ne_nil hne
          refine ⟨u, units ++ decodeUtf8 none xs, ?_,
            pointUnits_beyondAscii hpoint (by simp [hunits])⟩
          rw [decodeUtf8, if_pos hb, if_pos hmissing, hunits]
          rfl
        · obtain ⟨u, rest, hrest, hu⟩ := ih (h.next hb hmissing)
          refine ⟨u, rest, ?_, hu⟩
          rw [decodeUtf8, if_pos hb, if_neg hmissing, hrest]
      · have hrest : decodeUtf8 (some seq) (b :: xs) = 0xFFFD ::
            ((leadByte b.val).1 ++ decodeUtf8 (leadByte b.val).2 xs) := by
          rw [decodeUtf8, if_neg hb]
          rfl
        exact ⟨0xFFFD, _, hrest, by decide⟩

/-- What a text starts with is in its first byte, if that is ASCII. -/
theorem utf8Text_cons (b : Byte) (xs : List Byte) :
    (b.val < 0x80 ∧ utf8Text (b :: xs) = Fin.ofNat _ b.val :: utf8Text xs) ∨
      ∃ u rest, utf8Text (b :: xs) = u :: rest ∧ 0x80 ≤ u.val := by
  by_cases hb : b.val < 0x80
  · exact .inl ⟨hb, utf8Text_ascii [] hb xs⟩
  · right
    have hread : utf8Text (b :: xs) = (leadByte b.val).1 ++ decodeUtf8 (leadByte b.val).2 xs := rfl
    rcases leadByte_units b.val with hnil | hfffd | ⟨hascii, -⟩
    · cases hseq : (leadByte b.val).2 with
      | none =>
          unfold leadByte at hnil hseq
          split_ifs at hnil hseq
      | some seq =>
          obtain ⟨u, rest, hrest, hu⟩ := decodeUtf8_some_head (leadByte_beyondAscii b.isLt hseq) xs
          refine ⟨u, rest, ?_, hu⟩
          rw [hread, hnil, hseq, hrest]
          rfl
    · rw [hfffd] at hread
      exact ⟨0xFFFD, _, hread, by decide⟩
    · exact absurd hascii hb

theorem utf8Text_eq_nil {xs : List Byte} (h : utf8Text xs = []) : xs = [] := by
  cases xs with
  | nil => rfl
  | cons b xs =>
      rcases utf8Text_cons b xs with ⟨-, hcons⟩ | ⟨u, rest, hcons, -⟩
      · simp [h] at hcons
      · simp [h] at hcons

theorem utf8Text_eq_cons {xs : List Byte} {u : CodeUnit} {rest : JsString}
    (h : utf8Text xs = u :: rest) (hu : u.val < 0x80) :
    ∃ b xs', xs = b :: xs' ∧ b.val = u.val ∧ utf8Text xs' = rest := by
  cases xs with
  | nil => cases h
  | cons b xs =>
      rcases utf8Text_cons b xs with ⟨hb, hcons⟩ | ⟨u', rest', hcons, hu'⟩
      · obtain ⟨rfl, rfl⟩ := List.cons.inj (hcons.symm.trans h)
        refine ⟨b, xs, rfl, ?_, rfl⟩
        exact (Nat.mod_eq_of_lt (by omega)).symm
      · obtain ⟨rfl, -⟩ := List.cons.inj (hcons.symm.trans h)
        omega

/-! ## ASCII text -/

/-- The bytes of a text that is all ASCII. -/
def asciiBytes (s : JsString) : List Byte := s.map fun c => Fin.ofNat 256 c.val

theorem utf8Text_asciiBytes {s : JsString} (h : ∀ c ∈ s, c.val < 0x80) (rest : List Byte) :
    utf8Text (asciiBytes s ++ rest) = s ++ utf8Text rest := by
  induction s with
  | nil => rfl
  | cons c s ih =>
      obtain ⟨hc, hs⟩ := List.forall_mem_cons.mp h
      have hval : (Fin.ofNat 256 c.val).val = c.val := Nat.mod_eq_of_lt (by omega)
      have hunit : Fin.ofNat 65536 (Fin.ofNat 256 c.val).val = c :=
        Fin.ext (by rw [hval]; exact Nat.mod_eq_of_lt c.isLt)
      have hsplit := utf8Text_ascii [] (b := Fin.ofNat 256 c.val) (by omega) (asciiBytes s ++ rest)
      rw [List.nil_append, ih hs, hunit] at hsplit
      exact hsplit

end OpticsAgent.Node
