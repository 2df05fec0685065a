import Mathlib
import OpticsAgent.Ecma.Number
import OpticsAgent.Ecma.Text

/-!
Numbers as text. `Number::toString` prints the shortest decimal that rounds
back to the number; the JSON number grammar reads a literal and rounds its
exact value. The main result is that reading what was printed gives the number
back, up to the sign of zero.
-/

namespace OpticsAgent.Ecma

/-- A decimal literal of the JSON grammar, as digits. -/
structure Literal where
  neg : Bool
  int : List Digit
  frac : List Digit
  exp : Option ℤ
deriving DecidableEq

namespace Literal

def fractionText (ds : List Digit) : JsString :=
  match ds with
  | [] => []
  | d :: rest => 46 :: digitUnit d :: rest.map digitUnit

def exponentText : Option ℤ → JsString
  | none => []
  | some e =>
      101 :: (if 0 ≤ e then 43 else 45) :: (naturalDigits e.natAbs).map digitUnit

def unsignedText (lit : Literal) : JsString :=
  lit.int.map digitUnit ++ fractionText lit.frac ++ exponentText lit.exp

def text (lit : Literal) : JsString :=
  (if lit.neg then [45] else []) ++ lit.unsignedText

def magnitude (lit : Literal) : ℚ :=
  decimalValue (lit.int ++ lit.frac) * 10 ^ (lit.exp.getD 0 - lit.frac.length)

/-- The Number a literal is read as. -/
def number (lit : Literal) : Number :=
  Number.roundSigned lit.neg lit.magnitude

/-- One digit, or several that do not start with zero. -/
def LeadingOk (ds : List Digit) : Prop :=
  ∃ d rest, ds = d :: rest ∧ (d = 0 → rest = [])

end Literal

/-- `0`, or a digit run that does not start with `0`. -/
def parseInt (s : JsString) : Option (List Digit × JsString) :=
  match s with
  | [] => none
  | c :: rest =>
      match digit? c with
      | none => none
      | some d =>
          if d = 0 then some ([0], rest)
          else some (d :: (spanDigits rest).1, (spanDigits rest).2)

def parseFraction (s : JsString) : Option (List Digit × JsString) :=
  match s with
  | [] => some ([], [])
  | c :: rest =>
      if c = 46 then
        match (spanDigits rest).1 with
        | [] => none
        | d :: ds => some (d :: ds, (spanDigits rest).2)
      else some ([], c :: rest)

def parseExponent (s : JsString) : Option (Option ℤ × JsString) :=
  match s with
  | [] => some (none, [])
  | c :: rest =>
      if c = 101 ∨ c = 69 then
        let signed : Bool × JsString :=
          match rest with
          | 43 :: tail => (false, tail)
          | 45 :: tail => (true, tail)
          | _ => (false, rest)
        match (spanDigits signed.2).1 with
        | [] => none
        | d :: ds =>
            let value : ℤ := decimalValue (d :: ds)
            some (some (if signed.1 then -value else value), (spanDigits signed.2).2)
      else some (none, c :: rest)

/-- The JSON number production. -/
def parseLiteral (s : JsString) : Option (Literal × JsString) :=
  let signed : Bool × JsString :=
    match s with
    | 45 :: tail => (true, tail)
    | _ => (false, s)
  match parseInt signed.2 with
  | none => none
  | some (int, afterInt) =>
      match parseFraction afterInt with
      | none => none
      | some (frac, afterFrac) =>
          match parseExponent afterFrac with
          | none => none
          | some (exp, rest) => some (⟨signed.1, int, frac, exp⟩, rest)

/-- The next unit cannot continue a number. -/
def EndsNumber (rest : JsString) : Prop :=
  ∀ c, rest.head? = some c → digit? c = none ∧ c ≠ 46 ∧ c ≠ 101 ∧ c ≠ 69

theorem endsNumber_nil : EndsNumber [] := by
  simp [EndsNumber]

theorem EndsNumber.startsNoDigit {rest : JsString} (h : EndsNumber rest) :
    StartsNoDigit rest := fun c hc => (h c hc).1

theorem parseExponent_text (e : Option ℤ) (rest : JsString) (h : EndsNumber rest) :
    parseExponent (Literal.exponentText e ++ rest) = some (e, rest) := by
  cases e with
  | none =>
      cases rest with
      | nil => rfl
      | cons c tail =>
          obtain ⟨-, -, hlow, hup⟩ := h c rfl
          simp [Literal.exponentText, parseExponent, hlow, hup]
  | some e =>
      have hspan := spanDigits_digitUnits (naturalDigits e.natAbs) rest h.startsNoDigit
      have hvalue := decimalValue_naturalDigits e.natAbs
      cases hdigits : naturalDigits e.natAbs with
      | nil => exact absurd hdigits (naturalDigits_ne_nil _)
      | cons d ds =>
          rw [hdigits] at hspan hvalue
          by_cases hsign : 0 ≤ e
          · simp [Literal.exponentText, parseExponent, hdigits, hsign] at hspan ⊢
            rw [hspan]
            simp [hvalue, abs_of_nonneg hsign]
          · simp [Literal.exponentText, parseExponent, hdigits, hsign] at hspan ⊢
            rw [hspan]
            simp [hvalue, abs_of_neg (not_le.mp hsign)]

theorem exponentText_startsNoDigit (e : Option ℤ) (rest : JsString) (h : EndsNumber rest) :
    StartsNoDigit (Literal.exponentText e ++ rest) := by
  cases e with
  | none => exact h.startsNoDigit
  | some e =>
      intro c hc
      simp only [Literal.exponentText, List.cons_append, List.head?_cons, Option.some.injEq] at hc
      subst c
      decide

theorem exponentText_noPoint (e : Option ℤ) (rest : JsString) (h : EndsNumber rest) (c : CodeUnit)
    (hc : (Literal.exponentText e ++ rest).head? = some c) : c ≠ 46 := by
  cases e with
  | none => exact (h c hc).2.1
  | some e =>
      simp only [Literal.exponentText, List.cons_append, List.head?_cons, Option.some.injEq] at hc
      subst c
      decide

theorem parseFraction_text (ds : List Digit) (rest : JsString) (hdigit : StartsNoDigit rest)
    (hpoint : ∀ c, rest.head? = some c → c ≠ 46) :
    parseFraction (Literal.fractionText ds ++ rest) = some (ds, rest) := by
  cases ds with
  | nil =>
      cases rest with
      | nil => rfl
      | cons c tail =>
          have hc : c ≠ 46 := hpoint c rfl
          simp [Literal.fractionText, parseFraction, hc]
  | cons d ds =>
      have hspan := spanDigits_digitUnits (d :: ds) rest hdigit
      simp only [List.map_cons, List.cons_append] at hspan
      simp [Literal.fractionText, parseFraction, hspan]

theorem fractionText_startsNoDigit (ds : List Digit) (rest : JsString) (h : StartsNoDigit rest) :
    StartsNoDigit (Literal.fractionText ds ++ rest) := by
  cases ds with
  | nil => exact h
  | cons d ds =>
      intro c hc
      simp only [Literal.fractionText, List.cons_append, List.head?_cons, Option.some.injEq] at hc
      subst c
      decide

theorem parseInt_text (ds : List Digit) (rest : JsString) (hds : Literal.LeadingOk ds)
    (h : StartsNoDigit rest) : parseInt (ds.map digitUnit ++ rest) = some (ds, rest) := by
  obtain ⟨d, tail, rfl, hzero⟩ := hds
  by_cases hd : d = 0
  · subst hd
    simp [parseInt, hzero rfl]
  · simp [parseInt, hd, spanDigits_digitUnits tail rest h]

/-- The number production reads exactly the literal that was printed. -/
theorem parseLiteral_text (lit : Literal) (rest : JsString)
    (hint : Literal.LeadingOk lit.int) (h : EndsNumber rest) :
    parseLiteral (lit.text ++ rest) = some (lit, rest) := by
  obtain ⟨neg, int, frac, exp⟩ := lit
  have hexp := parseExponent_text exp rest h
  have hfrac := parseFraction_text frac (Literal.exponentText exp ++ rest)
    (exponentText_startsNoDigit exp rest h) (exponentText_noPoint exp rest h)
  have hint' := parseInt_text int
    (Literal.fractionText frac ++ (Literal.exponentText exp ++ rest)) hint
    (fractionText_startsNoDigit frac _ (exponentText_startsNoDigit exp rest h))
  have hunsigned : Literal.unsignedText ⟨neg, int, frac, exp⟩ ++ rest =
      int.map digitUnit ++ (Literal.fractionText frac ++ (Literal.exponentText exp ++ rest)) := by
    simp [Literal.unsignedText]
  cases neg with
  | true =>
      have htext : Literal.text ⟨true, int, frac, exp⟩ ++ rest =
          45 :: (int.map digitUnit ++
            (Literal.fractionText frac ++ (Literal.exponentText exp ++ rest))) := by
        rw [← hunsigned]
        simp [Literal.text, Literal.unsignedText]
      rw [htext]
      simp only [parseLiteral, hint', hfrac, hexp]
  | false =>
      have htext : Literal.text ⟨false, int, frac, exp⟩ ++ rest =
          int.map digitUnit ++
            (Literal.fractionText frac ++ (Literal.exponentText exp ++ rest)) := by
        rw [← hunsigned]
        simp [Literal.text, Literal.unsignedText]
      rw [htext]
      -- The first unit is a digit, so the sign branch is not taken.
      obtain ⟨d, tail, hcons, -⟩ := hint
      have hsign : ∀ tail', int.map digitUnit ++
          (Literal.fractionText frac ++ (Literal.exponentText exp ++ rest)) ≠ 45 :: tail' := by
        intro tail' heq
        change int = d :: tail at hcons
        rw [hcons] at heq
        simp only [List.map_cons, List.cons_append, List.cons.injEq] at heq
        have hunit := congrArg Fin.val heq.1
        simp [digitUnit] at hunit
        omega
      unfold parseLiteral
      split
      · rename_i tail' heq
        exact absurd heq (hsign tail')
      · simp only [hint', hfrac, hexp]

/-! The digits `Number::toString` prints. -/

/-- `s * 10 ^ e` rounds to the magnitude of `x`. -/
def roundsTo (x : Double) (s : ℕ) (e : ℤ) : Bool :=
  roundMagnitude (s * 10 ^ e) = x.mag

/-- The `k`-digit decimal nearest to `x` that rounds to it, if there is one.
Only the two neighbours of `x` on the `k`-digit grid can be nearest. -/
def nearestDigits (x : Double) (k : ℕ) : Option (ℕ × ℤ) :=
  let e := Int.log 10 x.mag + 1 - k
  let scaled := x.mag / 10 ^ e
  let low := ⌊scaled⌋.toNat
  let below := roundsTo x low e
  let above := roundsTo x (low + 1) e
  if below && above then
    some (if scaled - low ≤ low + 1 - scaled then low else low + 1, e)
  else if below then some (low, e)
  else if above then some (low + 1, e)
  else none

/-- The fewest digits that round to `x`. Seventeen always do; the exact
expansion closes the search without that bound having to be proved. -/
def shortestDigits (x : Double) : ℕ × ℤ :=
  ((List.range 17).findSome? (fun k => nearestDigits x (k + 1))).getD
    (⌊x.mag * 2 ^ 1074⌋.toNat * 5 ^ 1074, -1074)

theorem nearestDigits_roundsTo {x : Double} {k : ℕ} {p : ℕ × ℤ}
    (h : nearestDigits x k = some p) : roundsTo x p.1 p.2 = true := by
  unfold nearestDigits at h
  dsimp only at h
  split_ifs at h with hboth hnear hbelow habove
  · obtain rfl := Option.some.inj h
    simp only [Bool.and_eq_true] at hboth
    exact hboth.1
  · obtain rfl := Option.some.inj h
    simp only [Bool.and_eq_true] at hboth
    exact hboth.2
  · obtain rfl := Option.some.inj h
    exact hbelow
  · obtain rfl := Option.some.inj h
    exact habove

/-- A binary fraction with `n` places is a decimal fraction with `n` places. -/
private theorem decimal_of_binary (k : ℤ) (hk : 0 ≤ k) (n : ℕ) :
    ((k.toNat * 5 ^ n : ℕ) : ℚ) * 10 ^ (-(n : ℤ)) = k * 2 ^ (-(n : ℤ)) := by
  have hcast : ((k.toNat : ℕ) : ℚ) = k := by exact_mod_cast Int.toNat_of_nonneg hk
  have hten : (10 : ℚ) ^ n = 5 ^ n * 2 ^ n := by
    rw [← mul_pow]
    norm_num
  have hfive : (5 : ℚ) ^ n ≠ 0 := by positivity
  rw [Nat.cast_mul, hcast, Nat.cast_pow, zpow_neg, zpow_neg, zpow_natCast, zpow_natCast, hten,
    mul_inv]
  push_cast
  rw [mul_assoc, mul_inv_cancel_left₀ hfive]

theorem exactExpansion (x : Double) :
    ((⌊x.mag * 2 ^ 1074⌋.toNat * 5 ^ 1074 : ℕ) : ℚ) * 10 ^ (-1074 : ℤ) = x.mag := by
  obtain ⟨k, hk⟩ := exists_scaled_of_exact x.exact
  have hscaled : x.mag * 2 ^ 1074 = k := by
    rw [hk, mul_assoc, ← zpow_natCast, ← zpow_add₀ (by norm_num)]
    exact mul_one _
  have hk0 : 0 ≤ k := by
    have hnonneg : (0 : ℚ) ≤ k := by
      rw [← hscaled]
      exact mul_nonneg x.nonneg (by positivity)
    exact_mod_cast hnonneg
  rw [hscaled, Int.floor_intCast, hk]
  exact decimal_of_binary k hk0 1074

theorem shortestDigits_roundsTo (x : Double) :
    roundMagnitude ((shortestDigits x).1 * 10 ^ (shortestDigits x).2) = x.mag := by
  cases hfind : (List.range 17).findSome? (fun k => nearestDigits x (k + 1)) with
  | none =>
      rw [shortestDigits, hfind, Option.getD_none, exactExpansion, x.exact]
  | some p =>
      rw [shortestDigits, hfind, Option.getD_some]
      obtain ⟨k, -, hk⟩ := List.exists_of_findSome?_eq_some hfind
      simpa [roundsTo] using nearestDigits_roundsTo hk

/-! The layout of `Number::toString`: significant digits `ds` and the position
`n` of the decimal point, so that the value is `0.ds * 10 ^ n`. -/

def layout (ds : List Digit) (n : ℤ) : Literal :=
  if ds.length ≤ n ∧ n ≤ 21 then
    ⟨false, ds ++ List.replicate (n - ds.length).toNat 0, [], none⟩
  else if 0 < n ∧ n ≤ 21 then ⟨false, ds.take n.toNat, ds.drop n.toNat, none⟩
  else if -6 < n ∧ n ≤ 0 then ⟨false, [0], List.replicate (-n).toNat 0 ++ ds, none⟩
  else ⟨false, ds.take 1, ds.drop 1, some (n - 1)⟩

/-- The digits of `s` without trailing zeros. -/
def significantDigits (s : ℕ) : List Digit :=
  (((Nat.digits 10 s).dropWhile (· = 0)).map (Fin.ofNat 10)).reverse

/-- The literal `Number::toString` prints for a finite number. -/
def numberLiteral (x : Double) : Literal :=
  if x.mag = 0 then ⟨false, [0], [], none⟩
  else
    let (s, e) := shortestDigits x
    { layout (significantDigits s) ((Nat.digits 10 s).length + e) with neg := x.neg }

/-- Both zeros print as `0`. -/
theorem numberLiteral_clearNegZero (x : Double) :
    numberLiteral x.clearNegZero = numberLiteral x := by
  rcases eq_or_ne x.mag 0 with hzero | hpos
  · rw [numberLiteral, numberLiteral, if_pos hzero,
      if_pos ((Double.clearNegZero_mag_eq_zero_iff x).mpr hzero)]
  · rw [Double.clearNegZero, if_neg hpos]

/-- `String(x)`. -/
def Number.toText : Number → JsString
  | .nan => js "NaN"
  | .infinity neg => if neg then js "-Infinity" else js "Infinity"
  | .finite x => (numberLiteral x).text

theorem layout_magnitude (ds : List Digit) (n : ℤ) :
    (layout ds n).magnitude = decimalValue ds * 10 ^ (n - ds.length) := by
  unfold layout Literal.magnitude
  split_ifs with hwhole hpoint hsmall
  · have hexp : n - ds.length = ((n - ds.length).toNat : ℤ) := by omega
    simp only [List.append_nil, decimalValue_append, decimalValue_replicate_zero, List.length_nil,
      List.length_replicate, Option.getD_none]
    rw [hexp, zpow_natCast]
    push_cast
    simp
  · have hlen : n.toNat ≤ ds.length := by omega
    simp only [List.take_append_drop, List.length_drop, Option.getD_none]
    congr 2
    omega
  · have hpad : decimalValue ([0] ++ (List.replicate (-n).toNat 0 ++ ds)) = decimalValue ds := by
      have hzeros : [0] ++ (List.replicate (-n).toNat (0 : Digit) ++ ds) =
          List.replicate ((-n).toNat + 1) 0 ++ ds := by
        simp [List.replicate_succ]
      rw [hzeros, decimalValue_append, decimalValue_replicate_zero]
      simp
    simp only [hpad, List.length_append, List.length_replicate, Option.getD_none]
    congr 2
    push_cast
    omega
  · cases ds with
    | nil => simp [decimalValue]
    | cons d rest =>
        simp only [List.take_append_drop, List.length_drop, Option.getD_some, List.length_cons]
        congr 2
        push_cast
        omega

theorem layout_leadingOk (ds : List Digit) (n : ℤ)
    (h : ∃ d rest, ds = d :: rest ∧ d ≠ 0) : Literal.LeadingOk (layout ds n).int := by
  obtain ⟨d, rest, rfl, hd⟩ := h
  unfold layout
  split_ifs with hwhole hpoint hsmall
  · exact ⟨d, rest ++ List.replicate _ 0, rfl, fun hzero => absurd hzero hd⟩
  · obtain ⟨k, hk⟩ : ∃ k, n.toNat = k + 1 := ⟨n.toNat - 1, by omega⟩
    exact ⟨d, rest.take k, by simp [hk], fun hzero => absurd hzero hd⟩
  · exact ⟨0, [], rfl, fun _ => rfl⟩
  · exact ⟨d, [], by simp, fun _ => rfl⟩

/-- Dropping trailing zeros moves them into the exponent. -/
theorem significantDigits_value (s : ℕ) (e : ℤ) :
    (decimalValue (significantDigits s) : ℚ) *
      10 ^ ((Nat.digits 10 s).length + e - (significantDigits s).length) = s * 10 ^ e := by
  set zeros := (Nat.digits 10 s).takeWhile (· = 0)
  set tail := (Nat.digits 10 s).dropWhile (· = 0)
  have hsplit : Nat.digits 10 s = zeros ++ tail := (List.takeWhile_append_dropWhile).symm
  have hzeros : zeros = List.replicate zeros.length 0 := by
    apply List.eq_replicate_of_mem
    intro d hd
    simpa using List.mem_takeWhile_imp hd
  have hpositive : positiveDigits s =
      significantDigits s ++ List.replicate zeros.length 0 := by
    unfold positiveDigits significantDigits
    change _ = (tail.map (Fin.ofNat 10)).reverse ++ _
    rw [hsplit, List.map_append, List.reverse_append, hzeros, List.map_replicate,
      List.reverse_replicate, List.length_replicate]
    rfl
  have hvalue : s = decimalValue (significantDigits s) * 10 ^ zeros.length := by
    have hdecimal := decimalValue_positiveDigits s
    rw [hpositive, decimalValue_append, decimalValue_replicate_zero, List.length_replicate,
      add_zero] at hdecimal
    exact hdecimal.symm
  have hlen : ((Nat.digits 10 s).length : ℤ) =
      zeros.length + (significantDigits s).length := by
    have htail : (significantDigits s).length = tail.length := by
      simp [significantDigits, tail]
    rw [htail, hsplit, List.length_append]
    push_cast
    rfl
  have hexp : ((Nat.digits 10 s).length : ℤ) + e - (significantDigits s).length =
      zeros.length + e := by omega
  rw [hexp, zpow_add₀ (by norm_num), zpow_natCast, ← mul_assoc]
  conv_rhs => rw [hvalue]
  push_cast
  rfl

theorem significantDigits_cons {s : ℕ} (h : s ≠ 0) :
    ∃ d rest, significantDigits s = d :: rest ∧ d ≠ 0 := by
  have hdigits : Nat.digits 10 s ≠ [] := Nat.digits_ne_nil_iff_ne_zero.mpr h
  have hlast : (Nat.digits 10 s).getLast hdigits ≠ 0 := Nat.getLast_digit_ne_zero 10 h
  have htail : (Nat.digits 10 s).dropWhile (· = 0) ≠ [] := by
    rw [Ne, List.dropWhile_eq_nil_iff]
    intro hall
    exact hlast (by simpa using hall _ (List.getLast_mem hdigits))
  have hkeep : ((Nat.digits 10 s).dropWhile (· = 0)).getLast htail =
      (Nat.digits 10 s).getLast hdigits := by
    have hsuffix := List.dropWhile_suffix (l := Nat.digits 10 s) (· = 0)
    exact (hsuffix.getLast htail).symm ▸ rfl
  have hlt : (Nat.digits 10 s).getLast hdigits < 10 :=
    Nat.digits_lt_base (by norm_num) (List.getLast_mem hdigits)
  refine ⟨Fin.ofNat 10 ((Nat.digits 10 s).getLast hdigits), (significantDigits s).tail, ?_, ?_⟩
  · have hhead : (significantDigits s).head? =
        some (Fin.ofNat 10 ((Nat.digits 10 s).getLast hdigits)) := by
      unfold significantDigits
      rw [List.head?_reverse, List.getLast?_map, List.getLast?_eq_some_getLast htail, hkeep]
      rfl
    exact List.eq_cons_of_mem_head? (Option.mem_def.mpr hhead)
  · intro hzero
    have hval := congrArg Fin.val hzero
    simp [Nat.mod_eq_of_lt hlt] at hval
    exact hlast hval

theorem numberLiteral_leadingOk (x : Double) : Literal.LeadingOk (numberLiteral x).int := by
  unfold numberLiteral
  split_ifs with hzero
  · exact ⟨0, [], rfl, fun _ => rfl⟩
  · have hs : (shortestDigits x).1 ≠ 0 := by
      intro h
      apply hzero
      rw [← shortestDigits_roundsTo x, h]
      simp
    exact layout_leadingOk _ _ (significantDigits_cons hs)

theorem numberLiteral_magnitude {x : Double} (h : x.mag ≠ 0) :
    (numberLiteral x).magnitude = (shortestDigits x).1 * 10 ^ (shortestDigits x).2 := by
  rw [numberLiteral, if_neg h]
  exact (layout_magnitude _ _).trans (significantDigits_value _ _)

/-- Reading the printed literal of a finite number gives the number, with
`-0` read as `0`. -/
theorem numberLiteral_number (x : Double) :
    (numberLiteral x).number = .finite x.clearNegZero := by
  unfold Literal.number Double.clearNegZero
  split_ifs with hzero
  · rw [numberLiteral, if_pos hzero]
    simp [Literal.magnitude, decimalValue, Number.roundSigned, Double.zero]
  · have hnonneg : (0 : ℚ) ≤ (shortestDigits x).1 * 10 ^ (shortestDigits x).2 := by positivity
    have hneg : (numberLiteral x).neg = x.neg := by rw [numberLiteral, if_neg hzero]
    rw [numberLiteral_magnitude hzero, hneg]
    unfold Number.roundSigned
    simp only [abs_of_nonneg hnonneg, shortestDigits_roundsTo, x.bounded, dite_true]

theorem parseLiteral_numberLiteral (x : Double) (rest : JsString) (h : EndsNumber rest) :
    parseLiteral ((numberLiteral x).text ++ rest) = some (numberLiteral x, rest) :=
  parseLiteral_text _ rest (numberLiteral_leadingOk x) h

end OpticsAgent.Ecma
