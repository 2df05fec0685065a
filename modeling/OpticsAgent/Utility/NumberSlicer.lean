import Mathlib
import OpticsAgent.Ecma.Split
import OpticsAgent.Utility.SystemMetrics

/-!
`numberSlicer` cuts a number to two decimals on the text it prints as. That is
right for the texts without an exponent. In the exponent form the digits in
front of the exponent are taken for the number, so numbers from `1e21` on and
positive ones below `1e-6` come out as something between one and ten.
-/

namespace OpticsAgent.Utility

open OpticsAgent.Ecma

/-- `numberSlicer` of a printed text. -/
def slicedText (text : JsString) : ℚ :=
  match splitUnit 46 text with
  | [] => 0
  | first :: rest =>
      let integerPart := decimalValue (spanDigits first).1
      let decimals := (spanDigits ((rest.head?.getD []).take 2)).1
      integerPart + decimalValue decimals / 10 ^ decimals.length

theorem numberSlicer_eq (num : ℚ) :
    numberSlicer num = slicedText (Number.roundSigned false num).toText := rfl

/-- `t` cut to two decimals. -/
structure Cuts (t r : ℚ) : Prop where
  multiple : ∃ n : ℕ, r = n / 100
  le : r ≤ t
  lt : t - 1 / 100 < r

theorem Cuts.mono {s t r q : ℚ} (hr : Cuts s r) (hq : Cuts t q) (h : s ≤ t) : r ≤ q := by
  obtain ⟨m, rfl⟩ := hr.multiple
  obtain ⟨n, rfl⟩ := hq.multiple
  have hlt : (m : ℚ) / 100 < (n + 1 : ℕ) / 100 := by
    have hupper := hq.lt
    have hlower := hr.le
    push_cast
    linarith
  have hnat : m < n + 1 := by
    exact_mod_cast (div_lt_div_iff_of_pos_right (by norm_num : (0 : ℚ) < 100)).mp hlt
  have hle : (m : ℚ) ≤ n := by exact_mod_cast Nat.lt_succ_iff.mp hnat
  linarith

/-! ## Digits -/

theorem decimalValue_lt (ds : List Digit) : decimalValue ds < 10 ^ ds.length := by
  induction ds using List.reverseRecOn with
  | nil => decide
  | append_singleton ds d ih =>
      have hd : decimalValue [d] = d.val := by simp [decimalValue]
      have hlt := d.isLt
      rw [decimalValue_append, List.length_append, pow_add, hd]
      simp only [List.length_singleton, pow_one]
      omega

theorem le_decimalValue_cons {d : Digit} (hd : d ≠ 0) (ds : List Digit) :
    10 ^ ds.length ≤ decimalValue (d :: ds) := by
  have hone : decimalValue [d] = d.val := by simp [decimalValue]
  have hpos : 1 ≤ d.val := by
    by_contra hzero
    exact hd (Fin.ext (by simp; omega))
  rw [← List.singleton_append, decimalValue_append, hone]
  nlinarith [Nat.one_le_pow ds.length 10 (by norm_num)]

theorem decimals_bounds (ds : List Digit) :
    (0 : ℚ) ≤ decimalValue ds / 10 ^ ds.length ∧ (decimalValue ds : ℚ) / 10 ^ ds.length < 1 := by
  refine ⟨by positivity, ?_⟩
  rw [div_lt_one (by positivity)]
  exact_mod_cast decimalValue_lt ds

theorem spanDigits_digits (ds : List Digit) : (spanDigits (ds.map digitUnit)).1 = ds := by
  have hspan := spanDigits_digitUnits ds [] (by simp [StartsNoDigit])
  rw [List.append_nil] at hspan
  rw [hspan]

theorem point_not_mem_digits (ds : List Digit) : 46 ∉ ds.map digitUnit := by
  intro hmem
  obtain ⟨d, -, hd⟩ := List.mem_map.mp hmem
  have hval := congrArg Fin.val hd
  have hdigit : (digitUnit d).val = 48 + d.val := rfl
  rw [hdigit] at hval
  have hpoint : ((46 : CodeUnit) : ℕ) = 46 := rfl
  omega

/-! ## Texts without an exponent -/

theorem slicedText_plain (int frac : List Digit) :
    slicedText (int.map digitUnit ++ Literal.fractionText frac) =
      decimalValue int + decimalValue (frac.take 2) / 10 ^ (frac.take 2).length := by
  have hint := splitUnit_of_not_mem (point_not_mem_digits int)
  cases frac with
  | nil =>
      rw [Literal.fractionText, List.append_nil, slicedText, hint]
      simp only [spanDigits_digits]
      rfl
  | cons d rest =>
      have hfrac := splitUnit_of_not_mem (point_not_mem_digits (d :: rest))
      have htext : int.map digitUnit ++ Literal.fractionText (d :: rest) =
          int.map digitUnit ++ 46 :: (d :: rest).map digitUnit := rfl
      rw [htext, slicedText, splitUnit_append, hint, hfrac]
      simp only [List.singleton_append, List.head?_cons, Option.getD_some, spanDigits_digits,
        ← List.map_take]

/-- The digits of a text from the first two decimals on. -/
theorem decimal_split (int frac : List Digit) :
    (decimalValue (int ++ frac) : ℚ) * 10 ^ (-(frac.length : ℤ)) =
      decimalValue int + decimalValue (frac.take 2) / 10 ^ (frac.take 2).length +
        decimalValue (frac.drop 2) / 10 ^ frac.length := by
  have hlength : frac.length = (frac.take 2).length + (frac.drop 2).length := by
    rw [← List.length_append, List.take_append_drop]
  have hvalue := decimalValue_append (frac.take 2) (frac.drop 2)
  rw [List.take_append_drop] at hvalue
  rw [decimalValue_append, hvalue, zpow_neg, zpow_natCast, hlength, pow_add]
  push_cast
  field_simp
  ring

/-- The digits behind the second decimal are worth less than a hundredth. -/
theorem rest_lt (frac : List Digit) :
    (decimalValue (frac.drop 2) : ℚ) / 10 ^ frac.length < 1 / 100 := by
  rw [div_lt_div_iff₀ (by positivity) (by norm_num), one_mul]
  by_cases hshort : frac.length ≤ 2
  · rw [List.drop_of_length_le hshort]
    have hzero : decimalValue [] = 0 := rfl
    rw [hzero, Nat.cast_zero, zero_mul]
    positivity
  · have hlength : frac.length = (frac.drop 2).length + 2 := by
      rw [List.length_drop]
      omega
    have hlt : (decimalValue (frac.drop 2) : ℚ) < 10 ^ (frac.drop 2).length := by
      exact_mod_cast decimalValue_lt (frac.drop 2)
    rw [hlength, pow_add]
    linarith

theorem cuts_plain (int frac : List Digit) :
    Cuts (decimalValue (int ++ frac) * 10 ^ (-(frac.length : ℤ)))
      (decimalValue int + decimalValue (frac.take 2) / 10 ^ (frac.take 2).length) := by
  have hsplit := decimal_split int frac
  have hlt := rest_lt frac
  have hrest : (0 : ℚ) ≤ decimalValue (frac.drop 2) / 10 ^ frac.length := by positivity
  refine ⟨?_, by linarith, by linarith⟩
  have hle : (frac.take 2).length ≤ 2 := List.length_take_le 2 frac
  have hpow : (10 : ℚ) ^ (frac.take 2).length * 10 ^ (2 - (frac.take 2).length) = 100 := by
    rw [← pow_add, Nat.add_sub_cancel' hle]
    norm_num
  refine ⟨decimalValue int * 100 +
    decimalValue (frac.take 2) * 10 ^ (2 - (frac.take 2).length), ?_⟩
  push_cast
  rw [← hpow]
  field_simp

/-! ## Texts with an exponent -/

theorem point_not_mem_exponentText (e : ℤ) : 46 ∉ Literal.exponentText (some e) := by
  unfold Literal.exponentText
  intro hmem
  rcases List.mem_cons.mp hmem with hletter | hmem
  · exact absurd hletter (by decide)
  · rcases List.mem_cons.mp hmem with hsign | hdigits
    · split_ifs at hsign
      · exact absurd hsign (by decide)
      · exact absurd hsign (by decide)
    · exact point_not_mem_digits _ hdigits

/-- Only the digit in front of the point, or of the exponent, counts. -/
theorem slicedText_exponent {d : Digit} (hd : d ≠ 0) (frac : List Digit) (e : ℤ) :
    1 ≤ slicedText ([d].map digitUnit ++ Literal.fractionText frac ++
        Literal.exponentText (some e)) ∧
      slicedText ([d].map digitUnit ++ Literal.fractionText frac ++
        Literal.exponentText (some e)) < 10 := by
  have hfirst : ∃ first rest, splitUnit 46 ([d].map digitUnit ++ Literal.fractionText frac ++
      Literal.exponentText (some e)) = first :: rest ∧ (spanDigits first).1 = [d] := by
    cases frac with
    | nil =>
        refine ⟨_, [], splitUnit_of_not_mem ?_, ?_⟩
        · rw [Literal.fractionText, List.append_nil, List.mem_append, not_or]
          exact ⟨point_not_mem_digits [d], point_not_mem_exponentText e⟩
        · have hstart := exponentText_startsNoDigit (some e) [] endsNumber_nil
          rw [List.append_nil] at hstart
          rw [Literal.fractionText, List.append_nil, spanDigits_digitUnits _ _ hstart]
    | cons f rest =>
        have htext : [d].map digitUnit ++ Literal.fractionText (f :: rest) ++
            Literal.exponentText (some e) = [d].map digitUnit ++
              46 :: ((f :: rest).map digitUnit ++ Literal.exponentText (some e)) := by
          rw [Literal.fractionText]
          simp
        rw [htext, splitUnit_append, splitUnit_of_not_mem (point_not_mem_digits [d])]
        exact ⟨_, _, rfl, spanDigits_digits [d]⟩
  obtain ⟨first, rest, hsplit, hspan⟩ := hfirst
  have hdecimals := decimals_bounds (spanDigits ((rest.head?.getD []).take 2)).1
  have hvalue : (decimalValue [d] : ℚ) = d.val := by simp [decimalValue]
  have hpos : (1 : ℚ) ≤ d.val := by
    have hnat : 1 ≤ d.val := by
      by_contra hzero
      exact hd (Fin.ext (by simp; omega))
    exact_mod_cast hnat
  have hnine : (d.val : ℚ) ≤ 9 := by
    exact_mod_cast Nat.le_of_lt_succ d.isLt
  rw [slicedText, hsplit]
  simp only [hspan, hvalue]
  constructor <;> linarith

/-! ## Numbers -/

/-- The value of the text a number prints as. -/
def decimal (x : Double) : ℚ := (numberLiteral x).magnitude

/-- Zero, or a value that is printed without an exponent. -/
def PlainRange (t : ℚ) : Prop := t = 0 ∨ (1 / 10 ^ 6 ≤ t ∧ t < 10 ^ 21)

theorem magnitude_bounds {d : Digit} (hd : d ≠ 0) (rest : List Digit) (n : ℤ) :
    (10 : ℚ) ^ (n - 1) ≤ (layout (d :: rest) n).magnitude ∧
      (layout (d :: rest) n).magnitude < 10 ^ n := by
  have hlower : ((10 ^ rest.length : ℕ) : ℚ) ≤ decimalValue (d :: rest) := by
    exact_mod_cast le_decimalValue_cons hd rest
  have hupper : (decimalValue (d :: rest) : ℚ) < (10 ^ (d :: rest).length : ℕ) := by
    exact_mod_cast decimalValue_lt (d :: rest)
  have hpos : (0 : ℚ) < 10 ^ (n - (d :: rest).length) := by positivity
  rw [layout_magnitude]
  constructor
  · calc (10 : ℚ) ^ (n - 1) = (10 ^ rest.length : ℕ) * 10 ^ (n - (d :: rest).length) := by
          rw [Nat.cast_pow, ← zpow_natCast, Nat.cast_ofNat, ← zpow_add₀ (by norm_num)]
          congr 1
          push_cast [List.length_cons]
          ring
      _ ≤ _ := by gcongr
  · calc (decimalValue (d :: rest) : ℚ) * 10 ^ (n - (d :: rest).length)
        < (10 ^ (d :: rest).length : ℕ) * 10 ^ (n - (d :: rest).length) := by gcongr
      _ = 10 ^ n := by
          rw [Nat.cast_pow, ← zpow_natCast, Nat.cast_ofNat, ← zpow_add₀ (by norm_num)]
          congr 1
          ring

theorem plainRange_iff {d : Digit} (hd : d ≠ 0) (rest : List Digit) (n : ℤ) :
    PlainRange (layout (d :: rest) n).magnitude ↔ -6 < n ∧ n ≤ 21 := by
  obtain ⟨hlower, hupper⟩ := magnitude_bounds hd rest n
  have hpos : (0 : ℚ) < (layout (d :: rest) n).magnitude := lt_of_lt_of_le (by positivity) hlower
  have hsix : (1 : ℚ) / 10 ^ 6 = 10 ^ (-6 : ℤ) := by norm_num
  have htwenty : (10 : ℚ) ^ 21 = 10 ^ (21 : ℤ) := by norm_num
  have hten : (1 : ℚ) < 10 := by norm_num
  rw [PlainRange, hsix, htwenty]
  constructor
  · rintro (hzero | ⟨hsmall, hlarge⟩)
    · exact absurd hzero hpos.ne'
    · have hleft := (zpow_lt_zpow_iff_right₀ hten).mp (hsmall.trans_lt hupper)
      have hright := (zpow_lt_zpow_iff_right₀ hten).mp (hlower.trans_lt hlarge)
      omega
  · rintro ⟨hsmall, hlarge⟩
    refine .inr ⟨?_, ?_⟩
    · exact (zpow_le_zpow_right₀ hten.le (by omega)).trans hlower
    · exact hupper.trans_le (zpow_le_zpow_right₀ hten.le (by omega))

theorem literal_cuts (int frac : List Digit) :
    Cuts (Literal.magnitude ⟨false, int, frac, none⟩)
      (slicedText (Literal.text ⟨false, int, frac, none⟩)) := by
  have htext : Literal.text ⟨false, int, frac, none⟩ =
      int.map digitUnit ++ Literal.fractionText frac := by
    simp [Literal.text, Literal.unsignedText, Literal.exponentText]
  rw [htext, slicedText_plain, Literal.magnitude, Option.getD_none, zero_sub]
  exact cuts_plain int frac

/-- A literal without an exponent is cut right, one with an exponent is not. -/
theorem layout_cuts_iff {d : Digit} (hd : d ≠ 0) (rest : List Digit) (n : ℤ) :
    Cuts (layout (d :: rest) n).magnitude (slicedText (layout (d :: rest) n).text) ↔
      PlainRange (layout (d :: rest) n).magnitude := by
  by_cases hrange : -6 < n ∧ n ≤ 21
  · apply iff_of_true _ ((plainRange_iff hd rest n).mpr hrange)
    unfold layout
    split_ifs with hwhole hpoint hsmall
    · exact literal_cuts _ _
    · exact literal_cuts _ _
    · exact literal_cuts _ _
    · omega
  · apply iff_of_false _ fun h => hrange ((plainRange_iff hd rest n).mp h)
    intro hcuts
    obtain ⟨hlower, hupper⟩ := magnitude_bounds hd rest n
    have hlayout : layout (d :: rest) n = ⟨false, [d], rest, some (n - 1)⟩ := by
      unfold layout
      split_ifs with hwhole hpoint hsmall
      · simp only [List.length_cons] at hwhole
        omega
      · omega
      · omega
      · rfl
    have htext : (layout (d :: rest) n).text = [d].map digitUnit ++ Literal.fractionText rest ++
        Literal.exponentText (some (n - 1)) := by
      rw [hlayout]
      rfl
    obtain ⟨hone, hten⟩ := slicedText_exponent hd rest (n - 1)
    rw [← htext] at hone hten
    have hle := hcuts.le
    have hlt := hcuts.lt
    rcases lt_or_ge 21 n with hlarge | hsmall
    · have hbig : (10 : ℚ) ^ (2 : ℤ) ≤ 10 ^ (n - 1) :=
        zpow_le_zpow_right₀ (by norm_num) (by omega)
      norm_num at hbig
      linarith
    · have htiny : (10 : ℚ) ^ n ≤ 10 ^ (0 : ℤ) := zpow_le_zpow_right₀ (by norm_num) (by omega)
      rw [zpow_zero] at htiny
      linarith

theorem numberSlicer_value {x : Double} (hx : 0 ≤ x.value) :
    numberSlicer x.value = slicedText (numberLiteral x).text := by
  have hround : roundMagnitude |x.value| = x.mag := by rw [Double.abs_value, x.exact]
  have hfinite : Number.roundSigned false x.value =
      .finite ⟨false, x.mag, x.nonneg, x.exact, x.bounded⟩ := by
    unfold Number.roundSigned
    simp only [hround, x.bounded, dite_true]
  rw [numberSlicer_eq, hfinite, Number.toText]
  obtain ⟨neg, mag, hnonneg, hexact, hbounded⟩ := x
  cases neg with
  | false => rfl
  | true =>
      have hzero : mag = 0 := by
        have hle : 0 ≤ -mag := hx
        linarith
      subst hzero
      rfl

theorem layout_neg (ds : List Digit) (n : ℤ) : (layout ds n).neg = false := by
  unfold layout
  split_ifs <;> rfl

/-- The literal of a nonzero number, by its digits. -/
theorem numberLiteral_layout {x : Double} (hx : 0 ≤ x.value) (hmag : x.mag ≠ 0) :
    ∃ d rest n, d ≠ 0 ∧ numberLiteral x = layout (d :: rest) n := by
  have hneg : x.neg = false := by
    by_contra hneg
    rw [Double.value, if_pos (by simpa using hneg)] at hx
    exact hmag (le_antisymm (by linarith) x.nonneg)
  have hdigits : (shortestDigits x).1 ≠ 0 := by
    intro hzero
    apply hmag
    rw [← shortestDigits_roundsTo x, hzero]
    simp
  obtain ⟨d, rest, hcons, hd⟩ := significantDigits_cons hdigits
  refine ⟨d, rest, (Nat.digits 10 (shortestDigits x).1).length + (shortestDigits x).2, hd, ?_⟩
  rw [numberLiteral, if_neg hmag, ← hcons, hneg]
  exact congrArg (fun neg => Literal.mk neg _ _ _) (layout_neg _ _).symm

theorem decimal_zero {x : Double} (hmag : x.mag = 0) : decimal x = 0 := by
  rw [decimal, numberLiteral, if_pos hmag]
  simp [Literal.magnitude, decimalValue]

theorem sliced_cuts_iff {x : Double} (hx : 0 ≤ x.value) :
    Cuts (decimal x) (slicedText (numberLiteral x).text) ↔ PlainRange (decimal x) := by
  by_cases hmag : x.mag = 0
  · apply iff_of_true _ (.inl (decimal_zero hmag))
    rw [decimal, numberLiteral, if_pos hmag]
    exact literal_cuts [0] []
  · obtain ⟨d, rest, n, hd, hliteral⟩ := numberLiteral_layout hx hmag
    rw [decimal, hliteral]
    exact layout_cuts_iff hd rest n

theorem round_decimal (x : Double) : roundMagnitude (decimal x) = x.mag := by
  by_cases hmag : x.mag = 0
  · rw [decimal_zero hmag, roundMagnitude_zero, hmag]
  · rw [decimal, numberLiteral_magnitude hmag, shortestDigits_roundsTo]

theorem decimal_nonneg (x : Double) : 0 ≤ decimal x := by
  by_cases hmag : x.mag = 0
  · exact (decimal_zero hmag).ge
  · rw [decimal, numberLiteral_magnitude hmag]
    positivity

/-- A larger number has a larger text. -/
theorem decimal_mono {x y : Double} (h : x.mag ≤ y.mag) : decimal x ≤ decimal y := by
  by_contra hlt
  have hround := roundMagnitude_mono (decimal_nonneg y) (not_le.mp hlt).le
  rw [round_decimal, round_decimal] at hround
  have hmag : x.mag = y.mag := le_antisymm h hround
  apply hlt
  by_cases hzero : x.mag = 0
  · rw [decimal_zero hzero]
    exact decimal_nonneg y
  · have hdigits : shortestDigits x = shortestDigits y := by
      obtain ⟨neg, mag, hnonneg, hexact, hbounded⟩ := x
      obtain ⟨neg', mag', hnonneg', hexact', hbounded'⟩ := y
      subst hmag
      rfl
    rw [decimal, decimal, numberLiteral_magnitude hzero,
      numberLiteral_magnitude (hmag ▸ hzero), hdigits]

/-- The nearest number to `q` is printed without an exponent. -/
def Printed (q : ℚ) : Prop :=
  ∃ x : Double, Number.roundSigned false q = .finite x ∧ PlainRange (decimal x)

theorem numberSlicer_mono {p q : ℚ} (hp : 0 ≤ p) (hpq : p ≤ q) (hprinted : Printed p)
    (hprinted' : Printed q) : numberSlicer p ≤ numberSlicer q := by
  obtain ⟨x, hx, hplain⟩ := hprinted
  obtain ⟨y, hy, hplain'⟩ := hprinted'
  have hspec {r : ℚ} {z : Double} (hr : 0 ≤ r) (hz : Number.roundSigned false r = .finite z) :
      z.mag = roundMagnitude r ∧ 0 ≤ z.value := by
    unfold Number.roundSigned at hz
    split_ifs at hz
    obtain rfl := Number.finite.inj hz
    constructor
    · change roundMagnitude |r| = roundMagnitude r
      rw [abs_of_nonneg hr]
    · change 0 ≤ roundMagnitude |r|
      exact roundMagnitude_nonneg (abs_nonneg r)
  obtain ⟨hxmag, hxpos⟩ := hspec hp hx
  obtain ⟨hymag, hypos⟩ := hspec (hp.trans hpq) hy
  have hmag : x.mag ≤ y.mag := by
    rw [hxmag, hymag]
    exact roundMagnitude_mono hp hpq
  rw [numberSlicer_eq, numberSlicer_eq, hx, hy]
  exact ((sliced_cuts_iff hxpos).mpr hplain).mono ((sliced_cuts_iff hypos).mpr hplain')
    (decimal_mono hmag)

/-! ## Stored metrics -/

/-- The mean of samples is between the least and the greatest. -/
theorem mean_bounds {xs : List ℚ≥0} (h : xs ≠ []) {bottom top : ℚ≥0}
    (hbottom : bottom ∈ lowerBounds {x | x ∈ xs}) (htop : top ∈ upperBounds {x | x ∈ xs}) :
    bottom ≤ xs.sum / xs.length ∧ xs.sum / xs.length ≤ top := by
  have hpos : (0 : ℚ≥0) < xs.length := by exact_mod_cast List.length_pos_of_ne_nil h
  rw [le_div_iff₀ hpos, div_le_iff₀ hpos]
  constructor
  · have hsum := List.card_nsmul_le_sum xs bottom fun x hx => hbottom hx
    rwa [nsmul_eq_mul, mul_comm] at hsum
  · have hsum := List.sum_le_card_nsmul xs top fun x hx => htop hx
    rwa [nsmul_eq_mul, mul_comm] at hsum

theorem printed_value {x : Double} (h : PlainRange (decimal x)) : Printed x.value := by
  have hround : roundMagnitude |x.value| = x.mag := by rw [Double.abs_value, x.exact]
  have hsame : decimal ⟨false, x.mag, x.nonneg, x.exact, x.bounded⟩ = decimal x :=
    le_antisymm (decimal_mono le_rfl) (decimal_mono le_rfl)
  refine ⟨⟨false, x.mag, x.nonneg, x.exact, x.bounded⟩, ?_, hsame ▸ h⟩
  unfold Number.roundSigned
  simp only [hround, x.bounded, dite_true]

/-- Cutting keeps the order of what is collected. -/
theorem metric_ordered {xs : List ℚ≥0} (hne : xs ≠ []) (hprinted : ∀ x ∈ xs, Printed x)
    (haverage : Printed (xs.sum / xs.length : ℚ≥0)) :
    (Meter.collectAll xs).metric.min ≤ (Meter.collectAll xs).metric.average ∧
      (Meter.collectAll xs).metric.average ≤ (Meter.collectAll xs).metric.peak := by
  have hsummary := Meter.summarises_collectAll xs
  obtain ⟨top, htop, hpeak⟩ := hsummary.peak hne
  obtain ⟨bottom, hbottom, hmin⟩ := hsummary.min hne
  obtain ⟨hlower, hupper⟩ := mean_bounds hne hbottom.2 htop.2
  have hmean : (Meter.collectAll xs).metric.average =
      numberSlicer ((xs.sum / xs.length : ℚ≥0) : ℚ) := by
    rw [hsummary.average hne]
    push_cast
    rfl
  rw [hmin, hpeak, hmean]
  constructor
  · exact numberSlicer_mono bottom.2 (by exact_mod_cast hlower) (hprinted _ hbottom.1) haverage
  · exact numberSlicer_mono (xs.sum / xs.length).2 (by exact_mod_cast hupper) haverage
      (hprinted _ htop.1)

/-- A number is cut to two decimals exactly when its text has no exponent. On
such numbers cutting is monotone, so that what is stored of samples is in
order. -/
theorem numberSlicer_cuts_iff (x : Double) (hx : 0 ≤ x.value) :
    (Cuts (decimal x) (numberSlicer x.value) ↔ PlainRange (decimal x)) ∧
    (PlainRange (decimal x) → ∀ y : Double, PlainRange (decimal y) → x.value ≤ y.value →
      numberSlicer x.value ≤ numberSlicer y.value) ∧
    ∀ xs : List ℚ≥0, xs ≠ [] → (∀ x ∈ xs, Printed x) → Printed (xs.sum / xs.length : ℚ≥0) →
      (Meter.collectAll xs).metric.min ≤ (Meter.collectAll xs).metric.average ∧
        (Meter.collectAll xs).metric.average ≤ (Meter.collectAll xs).metric.peak := by
  refine ⟨?_, ?_, ?_⟩
  · rw [numberSlicer_value hx]
    exact sliced_cuts_iff hx
  · intro hplain y hplain' hxy
    exact numberSlicer_mono hx hxy (printed_value hplain) (printed_value hplain')
  · intro xs hne hprinted haverage
    exact metric_ordered hne hprinted haverage

theorem sampleUsage_bounded : roundMagnitude (172341538419 / 10 ^ 9) < 2 ^ 1024 := by
  decide +kernel

/-- `172.341538419`. -/
def sampleUsage : Double where
  neg := false
  mag := roundMagnitude (172341538419 / 10 ^ 9)
  nonneg := roundMagnitude_nonneg (by norm_num)
  exact := roundMagnitude_idem (by norm_num)
  bounded := sampleUsage_bounded

theorem numberSlicer_cuts_iff_sample :
    PlainRange (decimal sampleUsage) ∧ numberSlicer sampleUsage.value = 17234 / 100 ∧
      Cuts (decimal sampleUsage) (numberSlicer sampleUsage.value) := by
  have hpos : 0 ≤ sampleUsage.value := by decide +kernel
  have hplain : PlainRange (decimal sampleUsage) := by
    unfold PlainRange
    decide +kernel
  have hcut : numberSlicer sampleUsage.value = 17234 / 100 := by decide +kernel
  exact ⟨hplain, hcut, (numberSlicer_cuts_iff sampleUsage hpos).1.mpr hplain⟩

theorem tenMillionth_bounded : roundMagnitude (1 / 10 ^ 7) < 2 ^ 1024 := by decide +kernel

/-- `1e-7`. -/
def tenMillionth : Double where
  neg := false
  mag := roundMagnitude (1 / 10 ^ 7)
  nonneg := roundMagnitude_nonneg (by norm_num)
  exact := roundMagnitude_idem (by norm_num)
  bounded := tenMillionth_bounded

/-- `1e-7` is cut to one. -/
theorem numberSlicer_cuts_fails :
    0 ≤ tenMillionth.value ∧ (numberLiteral tenMillionth).text = js "1e-7" ∧
      numberSlicer tenMillionth.value = 1 ∧
      ¬ Cuts (decimal tenMillionth) (numberSlicer tenMillionth.value) := by
  refine ⟨?_, ?_, ?_, ?_⟩
  · decide +kernel
  · decide +kernel
  · decide +kernel
  · intro h
    have hle := h.le
    revert hle
    decide +kernel

end OpticsAgent.Utility
