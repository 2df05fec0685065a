import Mathlib

/-!
The ECMAScript Number type as far as the agent computes with it. A finite
number is a sign and a rational magnitude that is fixed by rounding to nearest
(ties to even) with 53 significant bits and least exponent -1074. Subtraction
is the exact difference rounded once. The rounding facts below are what the
clock comparisons need: rounding fixes representable magnitudes and is
monotone, so a rounded distance never shrinks when the exact one grows.
-/

namespace OpticsAgent.Ecma

/-- The nearest integer, the even one of two equally near. -/
def roundEven (q : ℚ) : ℤ :=
  if Int.fract q < 1 / 2 then ⌊q⌋
  else if 1 / 2 < Int.fract q then ⌊q⌋ + 1
  else if Even ⌊q⌋ then ⌊q⌋ else ⌊q⌋ + 1

theorem floor_le_roundEven (q : ℚ) : ⌊q⌋ ≤ roundEven q := by
  unfold roundEven
  split_ifs <;> omega

theorem roundEven_le_floor_add_one (q : ℚ) : roundEven q ≤ ⌊q⌋ + 1 := by
  unfold roundEven
  split_ifs <;> omega

@[simp] theorem roundEven_intCast (n : ℤ) : roundEven (n : ℚ) = n := by
  simp [roundEven]

theorem roundEven_mono {x y : ℚ} (h : x ≤ y) : roundEven x ≤ roundEven y := by
  have hfloor : ⌊x⌋ ≤ ⌊y⌋ := Int.floor_le_floor h
  rcases hfloor.lt_or_eq with hlt | heq
  · calc
      roundEven x ≤ ⌊x⌋ + 1 := roundEven_le_floor_add_one x
      _ ≤ ⌊y⌋ := hlt
      _ ≤ roundEven y := floor_le_roundEven y
  · -- Inside one unit interval only the fractional parts decide.
    have hfract : Int.fract x ≤ Int.fract y := by
      have hx := Int.floor_add_fract x
      have hy := Int.floor_add_fract y
      rw [heq] at hx
      linarith
    unfold roundEven
    rw [heq]
    split_ifs <;> first | omega | (exfalso; linarith)

theorem roundEven_le_intCast {x : ℚ} {n : ℤ} (h : x ≤ n) : roundEven x ≤ n := by
  simpa using roundEven_mono h

theorem intCast_le_roundEven {x : ℚ} {n : ℤ} (h : (n : ℚ) ≤ x) : n ≤ roundEven x := by
  simpa using roundEven_mono h

/-- The exponent of the last significant bit of a magnitude. -/
def ulpExponent (q : ℚ) : ℤ :=
  max (Int.log 2 q - 52) (-1074)

/-- Round a magnitude to 53 significant bits, subnormals included. The upper
end of the exponent range is checked where a number is built. -/
def roundMagnitude (q : ℚ) : ℚ :=
  roundEven (q / 2 ^ ulpExponent q) * 2 ^ ulpExponent q

private theorem two_zpow_pos (e : ℤ) : (0 : ℚ) < 2 ^ e := by positivity

@[simp] theorem roundMagnitude_zero : roundMagnitude 0 = 0 := by
  have h : roundEven 0 = 0 := by simpa using roundEven_intCast 0
  simp [roundMagnitude, h]

theorem roundMagnitude_nonneg {q : ℚ} (h : 0 ≤ q) : 0 ≤ roundMagnitude q := by
  have hdiv : (((0 : ℤ) : ℚ)) ≤ q / 2 ^ ulpExponent q := by
    simpa using div_nonneg h (two_zpow_pos _).le
  have hround : (0 : ℤ) ≤ roundEven (q / 2 ^ ulpExponent q) := intCast_le_roundEven hdiv
  exact mul_nonneg (by exact_mod_cast hround) (two_zpow_pos _).le

/-- A whole multiple of the unit in the last place is left alone. -/
theorem roundMagnitude_of_multiple (q : ℚ) (m : ℤ)
    (h : q = m * 2 ^ ulpExponent q) : roundMagnitude q = q := by
  have hdiv : q / 2 ^ ulpExponent q = m := by
    rw [div_eq_iff (two_zpow_pos _).ne']
    exact h
  unfold roundMagnitude
  rw [hdiv, roundEven_intCast]
  exact h.symm

theorem ulpExponent_mono {x y : ℚ} (hx : 0 < x) (h : x ≤ y) :
    ulpExponent x ≤ ulpExponent y := by
  have hlog := Int.log_mono_right (b := 2) hx h
  unfold ulpExponent
  omega

/-- The scaled magnitude that is rounded has at most 53 bits. -/
theorem scaled_lt (q : ℚ) : q / 2 ^ ulpExponent q < 2 ^ (53 : ℤ) := by
  rw [div_lt_iff₀ (two_zpow_pos _), ← zpow_add₀ (by norm_num)]
  have hlog : q < 2 ^ (Int.log 2 q + 1) := by
    exact_mod_cast Int.lt_zpow_succ_log_self (b := 2) (by norm_num) q
  refine hlog.trans_le (zpow_le_zpow_right₀ (by norm_num) ?_)
  unfold ulpExponent
  omega

theorem roundMagnitude_le_binade (q : ℚ) :
    roundMagnitude q ≤ 2 ^ (ulpExponent q + 53) := by
  have hround : roundEven (q / 2 ^ ulpExponent q) ≤ (2 : ℤ) ^ 53 := by
    apply roundEven_le_intCast
    exact_mod_cast (scaled_lt q).le
  have hcast : (roundEven (q / 2 ^ ulpExponent q) : ℚ) ≤ 2 ^ (53 : ℤ) := by
    exact_mod_cast hround
  unfold roundMagnitude
  rw [add_comm, zpow_add₀ (by norm_num)]
  exact mul_le_mul_of_nonneg_right hcast (two_zpow_pos _).le

/-- A magnitude whose exponent is not the least one fills its binade. -/
theorem binade_le_roundMagnitude {q : ℚ} (hq : 0 < q) (h : -1074 < ulpExponent q) :
    2 ^ (ulpExponent q + 52) ≤ roundMagnitude q := by
  have hlog : ulpExponent q = Int.log 2 q - 52 := by
    unfold ulpExponent at h ⊢
    omega
  have hlow : (2 : ℚ) ^ (52 : ℤ) ≤ q / 2 ^ ulpExponent q := by
    rw [le_div_iff₀ (two_zpow_pos _), ← zpow_add₀ (by norm_num), hlog]
    have hself : (2 : ℚ) ^ Int.log 2 q ≤ q := by
      exact_mod_cast Int.zpow_log_le_self (b := 2) (by norm_num) hq
    have harith : (52 : ℤ) + (Int.log 2 q - 52) = Int.log 2 q := by ring
    rwa [harith]
  have hround : ((2 : ℤ) ^ 52) ≤ roundEven (q / 2 ^ ulpExponent q) := by
    apply intCast_le_roundEven
    exact_mod_cast hlow
  have hcast : (2 : ℚ) ^ (52 : ℤ) ≤ roundEven (q / 2 ^ ulpExponent q) := by
    exact_mod_cast hround
  unfold roundMagnitude
  rw [add_comm, zpow_add₀ (by norm_num)]
  exact mul_le_mul_of_nonneg_right hcast (two_zpow_pos _).le

/-- Rounding is monotone. Within one exponent this is monotonicity of integer
rounding; across exponents the binade bound separates the two results. -/
theorem roundMagnitude_mono {x y : ℚ} (hx : 0 ≤ x) (h : x ≤ y) :
    roundMagnitude x ≤ roundMagnitude y := by
  rcases hx.eq_or_lt with hzero | hpos
  · rw [← hzero, roundMagnitude_zero]
    exact roundMagnitude_nonneg (hx.trans h)
  · have hy : 0 < y := hpos.trans_le h
    rcases (ulpExponent_mono hpos h).lt_or_eq with hlt | heq
    · have hleast : -1074 ≤ ulpExponent x := le_max_right _ _
      calc
        roundMagnitude x ≤ 2 ^ (ulpExponent x + 53) := roundMagnitude_le_binade x
        _ ≤ 2 ^ (ulpExponent y + 52) := zpow_le_zpow_right₀ (by norm_num) (by omega)
        _ ≤ roundMagnitude y := binade_le_roundMagnitude hy (by omega)
    · have hscaled : x / 2 ^ ulpExponent y ≤ y / 2 ^ ulpExponent y :=
        div_le_div_of_nonneg_right h (two_zpow_pos _).le
      unfold roundMagnitude
      rw [heq]
      exact mul_le_mul_of_nonneg_right (by exact_mod_cast roundEven_mono hscaled)
        (two_zpow_pos _).le

/-- A multiple of a power of two is a multiple of every smaller one. -/
private theorem rescale (m e e' : ℤ) (h : e' ≤ e) :
    ∃ k : ℤ, (m : ℚ) * 2 ^ e = k * 2 ^ e' := by
  refine ⟨m * 2 ^ (e - e').toNat, ?_⟩
  have hexp : e = ((e - e').toNat : ℤ) + e' := by omega
  push_cast
  rw [mul_assoc, ← zpow_natCast, ← zpow_add₀ (by norm_num), ← hexp]

/-- Magnitudes with at most 53 bits above exponent -1074 are representable. -/
theorem roundMagnitude_of_bits (m e : ℤ) (hm : 0 ≤ m) (hbits : m < 2 ^ 53)
    (he : -1074 ≤ e) : roundMagnitude (m * 2 ^ e) = m * 2 ^ e := by
  rcases hm.eq_or_lt with hzero | hpos
  · simp [← hzero]
  · have hposq : (0 : ℚ) < m * 2 ^ e := by positivity
    have hlt : (m : ℚ) * 2 ^ e < 2 ^ (53 + e) := by
      rw [zpow_add₀ (by norm_num)]
      exact mul_lt_mul_of_pos_right (by exact_mod_cast hbits) (two_zpow_pos _)
    have hlog : Int.log 2 ((m : ℚ) * 2 ^ e) < 53 + e :=
      (Int.lt_zpow_iff_log_lt (b := 2) (by norm_num) hposq).mp (by exact_mod_cast hlt)
    have hulp : ulpExponent ((m : ℚ) * 2 ^ e) ≤ e := by
      unfold ulpExponent
      omega
    obtain ⟨k, hk⟩ := rescale m e _ hulp
    exact roundMagnitude_of_multiple _ k hk

theorem roundMagnitude_natCast (n : ℕ) (h : n < 2 ^ 53) : roundMagnitude n = n := by
  have hround := roundMagnitude_of_bits n 0 (by positivity) (by exact_mod_cast h) (by norm_num)
  simpa using hround

/-- Rounding twice is rounding once. -/
theorem roundMagnitude_idem {q : ℚ} (hq : 0 ≤ q) :
    roundMagnitude (roundMagnitude q) = roundMagnitude q := by
  rcases hq.eq_or_lt with hzero | hpos
  · simp [← hzero]
  · have hleast : -1074 ≤ ulpExponent q := le_max_right _ _
    have hnonneg : (0 : ℤ) ≤ roundEven (q / 2 ^ ulpExponent q) := by
      apply intCast_le_roundEven
      simpa using div_nonneg hq (two_zpow_pos _).le
    have hbound : roundEven (q / 2 ^ ulpExponent q) ≤ (2 : ℤ) ^ 53 := by
      apply roundEven_le_intCast
      exact_mod_cast (scaled_lt q).le
    rcases hbound.lt_or_eq with hlt | heq
    · exact roundMagnitude_of_bits _ _ hnonneg hlt hleast
    · -- The carry into the next binade leaves a single bit.
      have hcarry : roundMagnitude q = ((2 ^ 52 : ℤ) : ℚ) * 2 ^ (ulpExponent q + 1) := by
        unfold roundMagnitude
        rw [heq, zpow_add₀ (by norm_num)]
        norm_num
        ring
      rw [hcarry]
      exact roundMagnitude_of_bits _ _ (by norm_num) (by norm_num) (by omega)

/-- A representable magnitude is a whole multiple of the least bit. -/
theorem exists_scaled_of_exact {q : ℚ} (h : roundMagnitude q = q) :
    ∃ k : ℤ, q = k * 2 ^ (-1074 : ℤ) := by
  obtain ⟨k, hk⟩ := rescale (roundEven (q / 2 ^ ulpExponent q)) (ulpExponent q) (-1074)
    (le_max_right _ _)
  exact ⟨k, by rw [← hk]; exact h.symm⟩

end OpticsAgent.Ecma
