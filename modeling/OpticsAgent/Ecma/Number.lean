import Mathlib
import OpticsAgent.Ecma.Binary64

/-!
Number values: finite doubles with a signed zero, the infinities and NaN, and
the operators the agent applies to them (`-`, `Math.abs`, `>`, `===`). The
last section is about the rounded distance `Math.abs(a - b)`, the only
arithmetic the signature checks do.
-/

namespace OpticsAgent.Ecma

/-- A finite Number. The fields make an unrepresentable magnitude unbuildable. -/
structure Double where
  neg : Bool
  mag : ℚ
  nonneg : 0 ≤ mag
  exact : roundMagnitude mag = mag
  bounded : mag < 2 ^ 1024
deriving DecidableEq

namespace Double

def zero : Double := ⟨false, 0, le_refl 0, roundMagnitude_zero, by norm_num⟩

def negZero : Double := { zero with neg := true }

def value (x : Double) : ℚ :=
  if x.neg then -x.mag else x.mag

/-- A natural number in the safe range. -/
def natural (n : ℕ) (h : n < 2 ^ 53) : Double where
  neg := false
  mag := n
  nonneg := Nat.cast_nonneg n
  exact := roundMagnitude_natCast n h
  bounded :=
    calc
      (n : ℚ) < 2 ^ 53 := by exact_mod_cast h
      _ ≤ 2 ^ 1024 := pow_le_pow_right₀ (by norm_num) (by norm_num)

/-- `-0` read back from a text is `0`; every other number is itself. -/
def clearNegZero (x : Double) : Double :=
  if x.mag = 0 then zero else x

@[simp] theorem value_zero : zero.value = 0 := rfl

@[simp] theorem abs_value (x : Double) : |x.value| = x.mag := by
  unfold value
  split_ifs
  · rw [abs_neg, abs_of_nonneg x.nonneg]
  · exact abs_of_nonneg x.nonneg

theorem value_eq_zero_iff (x : Double) : x.value = 0 ↔ x.mag = 0 := by
  rw [← abs_value x, abs_eq_zero]

@[simp] theorem value_clearNegZero (x : Double) : x.clearNegZero.value = x.value := by
  unfold clearNegZero
  split_ifs with h
  · rw [value_zero, (value_eq_zero_iff x).mpr h]
  · rfl

/-- Two finite numbers of one value differ at most in the sign of zero. -/
theorem clearNegZero_eq_iff (x y : Double) :
    x.clearNegZero = y.clearNegZero ↔ x.value = y.value := by
  constructor
  · intro h
    rw [← value_clearNegZero x, h, value_clearNegZero]
  · intro h
    have hmag : x.mag = y.mag := by rw [← abs_value x, h, abs_value]
    unfold clearNegZero
    by_cases hzero : y.mag = 0
    · rw [if_pos (hmag.trans hzero), if_pos hzero]
    · rw [if_neg (fun hx => hzero (hmag.symm.trans hx)), if_neg hzero]
      obtain ⟨xneg, xmag, hx⟩ := x
      obtain ⟨yneg, ymag, hy⟩ := y
      obtain rfl : xmag = ymag := hmag
      have hpos : (0 : ℚ) < xmag := lt_of_le_of_ne hy (Ne.symm hzero)
      cases xneg <;> cases yneg <;> simp [value] at h ⊢
      all_goals exact hpos.ne' (by linarith)

@[simp] theorem clearNegZero_idem (x : Double) :
    x.clearNegZero.clearNegZero = x.clearNegZero := by
  rw [clearNegZero_eq_iff, value_clearNegZero]

theorem clearNegZero_mag_eq_zero_iff (x : Double) : x.clearNegZero.mag = 0 ↔ x.mag = 0 := by
  unfold clearNegZero
  split_ifs with h
  · exact iff_of_true rfl h
  · exact Iff.rfl

end Double

inductive Number where
  | nan
  | infinity (neg : Bool)
  | finite (x : Double)
deriving DecidableEq

namespace Number

/-- The Number of a sign and a rational magnitude, rounded once. -/
def roundSigned (neg : Bool) (q : ℚ) : Number :=
  if h : roundMagnitude |q| < 2 ^ 1024 then
    .finite ⟨neg, roundMagnitude |q|, roundMagnitude_nonneg (abs_nonneg q),
      roundMagnitude_idem (abs_nonneg q), h⟩
  else .infinity neg

def ofInt (n : ℤ) : Number :=
  roundSigned (n < 0) n

def isFinite : Number → Bool
  | .finite _ => true
  | _ => false

/-- The operator `-`. -/
def sub : Number → Number → Number
  | .nan, _ => .nan
  | _, .nan => .nan
  | .infinity s, .infinity t => if s = t then .nan else .infinity s
  | .infinity s, .finite _ => .infinity s
  | .finite _, .infinity t => .infinity !t
  | .finite a, .finite b =>
      if a.value = b.value then
        .finite (if a.neg && !b.neg then Double.negZero else Double.zero)
      else roundSigned (a.value < b.value) (a.value - b.value)

/-- `Math.abs`. -/
def abs : Number → Number
  | .nan => .nan
  | .infinity _ => .infinity false
  | .finite x => .finite { x with neg := false }

/-- The operator `>`. -/
def gt : Number → Number → Bool
  | .nan, _ => false
  | _, .nan => false
  | .infinity s, .infinity t => !s && t
  | .infinity s, .finite _ => !s
  | .finite _, .infinity t => t
  | .finite a, .finite b => b.value < a.value

/-- The operator `===`. -/
def strictEq : Number → Number → Bool
  | .infinity s, .infinity t => s == t
  | .finite a, .finite b => a.value = b.value
  | _, _ => false

/-- `Math.abs(a - b)`. -/
def distance (a b : Number) : Number :=
  abs (sub a b)

@[simp] theorem abs_roundSigned (neg : Bool) (q : ℚ) :
    abs (roundSigned neg q) = roundSigned false q := by
  unfold roundSigned
  split_ifs <;> rfl

theorem roundSigned_zero : roundSigned false 0 = .finite Double.zero := by
  unfold roundSigned
  simp [Double.zero]

theorem roundSigned_congr {p q : ℚ} (neg : Bool) (h : |p| = |q|) :
    roundSigned neg p = roundSigned neg q := by
  unfold roundSigned
  simp only [h]

theorem distance_finite (a b : Double) :
    distance (.finite a) (.finite b) = roundSigned false (a.value - b.value) := by
  unfold distance sub
  dsimp only
  split_ifs with heq hneg
  · rw [heq, sub_self, roundSigned_zero]
    rfl
  · rw [heq, sub_self, roundSigned_zero]
    rfl
  · rw [abs_roundSigned]

theorem strictEq_self_of_isFinite {x : Number} (h : x.isFinite = true) :
    x.strictEq x = true := by
  cases x with
  | finite x => exact decide_eq_true rfl
  | nan => cases h
  | infinity s => cases h

theorem distance_comm (a b : Number) : distance a b = distance b a := by
  cases a with
  | nan => cases b <;> rfl
  | infinity s =>
      cases b with
      | nan => rfl
      | infinity t => cases s <;> cases t <;> rfl
      | finite y => cases s <;> rfl
  | finite x =>
      cases b with
      | nan => rfl
      | infinity t => cases t <;> rfl
      | finite y =>
          rw [distance_finite, distance_finite]
          exact roundSigned_congr false (abs_sub_comm _ _)

/-- The distance depends on values only, not on the sign of a zero. -/
theorem distance_congr_right {s t : Number} (a : Number) (h : s.strictEq t = true) :
    distance a s = distance a t := by
  cases s with
  | nan => simp [strictEq] at h
  | infinity p =>
      cases t with
      | nan => simp [strictEq] at h
      | infinity q =>
          have hsign : p = q := by simpa [strictEq] using h
          rw [hsign]
      | finite y => simp [strictEq] at h
  | finite x =>
      cases t with
      | nan => simp [strictEq] at h
      | infinity q => simp [strictEq] at h
      | finite y =>
          have hvalue : x.value = y.value := by simpa [strictEq] using h
          cases a with
          | nan => rfl
          | infinity r => rfl
          | finite z => rw [distance_finite, distance_finite, hvalue]

/-- A larger exact difference keeps its rounded distance above a limit. -/
theorem gt_roundSigned_mono {p q : ℚ} (w : Number) (h : |p| ≤ |q|)
    (hp : gt (roundSigned false p) w = true) : gt (roundSigned false q) w = true := by
  have hround : roundMagnitude |p| ≤ roundMagnitude |q| :=
    roundMagnitude_mono (abs_nonneg p) h
  unfold roundSigned at hp ⊢
  cases w with
  | nan => split_ifs at hp <;> simp [gt] at hp
  | infinity t =>
      split_ifs at hp ⊢ <;> simp_all [gt]
  | finite x =>
      by_cases hbig : roundMagnitude |q| < 2 ^ 1024
      · have hsmall : roundMagnitude |p| < 2 ^ 1024 := hround.trans_lt hbig
        rw [dif_pos hsmall] at hp
        rw [dif_pos hbig]
        simp only [gt, decide_eq_true_eq] at hp ⊢
        exact hp.trans_le hround
      · rw [dif_neg hbig]
        rfl

/-- Integers below 2^53 are Numbers exactly. -/
theorem ofInt_eq_finite (n : ℤ) (h : |n| < 2 ^ 53) :
    ∃ x : Double, ofInt n = .finite x ∧ x.value = n := by
  have hmag : roundMagnitude |(n : ℚ)| = |(n : ℚ)| := by
    have hbits := roundMagnitude_of_bits |n| 0 (abs_nonneg n) h (by norm_num)
    simpa using hbits
  have hbound : |(n : ℚ)| < 2 ^ 1024 := by
    calc
      |(n : ℚ)| < 2 ^ 53 := by exact_mod_cast h
      _ ≤ 2 ^ 1024 := pow_le_pow_right₀ (by norm_num) (by norm_num)
  refine ⟨⟨n < 0, |(n : ℚ)|, abs_nonneg _, hmag, hbound⟩, ?_, ?_⟩
  · unfold ofInt roundSigned
    simp only [hmag, hbound, dite_true]
  · unfold Double.value
    by_cases hneg : n < 0
    · have hcast : (n : ℚ) < 0 := by exact_mod_cast hneg
      simp [hneg, abs_of_neg hcast]
    · have hcast : (0 : ℚ) ≤ n := by exact_mod_cast not_lt.mp hneg
      simp [hneg, abs_of_nonneg hcast]

theorem ofInt_inj {m n : ℤ} (hm : |m| < 2 ^ 53) (hn : |n| < 2 ^ 53)
    (h : ofInt m = ofInt n) : m = n := by
  obtain ⟨x, hx, hvaluex⟩ := ofInt_eq_finite m hm
  obtain ⟨y, hy, hvaluey⟩ := ofInt_eq_finite n hn
  rw [hx, hy] at h
  have hxy : x = y := finite.inj h
  rw [hxy, hvaluey] at hvaluex
  exact_mod_cast hvaluex.symm

end Number

end OpticsAgent.Ecma
