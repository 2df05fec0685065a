import Mathlib
import OpticsAgent.Ecma.Value

/-!
`new Date(text)` for texts of the date-time format with all its elements, the
only ones the agent builds. A day of the month may run over into the next month.
`toISOString` writes a time value in that format, and reading it back gives the
time value.
-/

namespace OpticsAgent.Ecma

/-- The day number of a civil date; the day may be out of its month. -/
def daysFromCivil (year : ℤ) (month day : ℕ) : ℤ :=
  let shifted := if month ≤ 2 then year - 1 else year
  let yearOfEra := shifted % 400
  let dayOfYear : ℤ := (153 * (if month ≤ 2 then month + 9 else month - 3) + 2) / 5 + day - 1
  shifted / 400 * 146097 + yearOfEra * 365 + yearOfEra / 4 - yearOfEra / 100 + dayOfYear - 719468

/-- Exactly `n` digits. -/
def takeDigits (n : ℕ) (s : JsString) : Option (ℕ × JsString) :=
  if (s.take n).length < n then none
  else ((s.take n).mapM digit?).map fun digits => (decimalValue digits, s.drop n)

def expectUnit (c : CodeUnit) (s : JsString) : Option JsString :=
  match s with
  | d :: rest => if d = c then some rest else none
  | [] => none

/-- `YYYY`, or a sign and `YYYYYY`. -/
def takeYear (s : JsString) : Option (ℤ × JsString) :=
  match s with
  | 43 :: rest => (takeDigits 6 rest).map fun p => ((p.1 : ℤ), p.2)
  | 45 :: rest => (takeDigits 6 rest).map fun p => (-(p.1 : ℤ), p.2)
  | _ => (takeDigits 4 s).map fun p => ((p.1 : ℤ), p.2)

/-- `.sss`, which may be missing. -/
def takeMilliseconds (s : JsString) : Option (ℕ × JsString) :=
  match s with
  | 46 :: rest => takeDigits 3 rest
  | _ => some (0, s)

/-- `Z` or an offset, in minutes, at the end of the text. -/
def zoneMinutes (s : JsString) : Option ℤ :=
  match s with
  | [90] => some 0
  | sign :: rest => do
      let (hours, afterHours) ← takeDigits 2 rest
      let afterColon ← expectUnit 58 afterHours
      let (minutes, afterMinutes) ← takeDigits 2 afterColon
      if afterMinutes ≠ [] ∨ 23 < hours ∨ 59 < minutes then none
      else if sign = 43 then some (hours * 60 + minutes)
      else if sign = 45 then some (-(hours * 60 + minutes))
      else none
  | [] => none

/-- The elements of a date-time text between the year and the zone. -/
structure DateFields where
  year : ℤ
  month : ℕ
  day : ℕ
  hour : ℕ
  minute : ℕ
  second : ℕ
  ms : ℕ

def takeFields (s : JsString) : Option (DateFields × JsString) := do
  let (year, s) ← takeYear s
  let s ← expectUnit 45 s
  let (month, s) ← takeDigits 2 s
  let s ← expectUnit 45 s
  let (day, s) ← takeDigits 2 s
  let s ← expectUnit 84 s
  let (hour, s) ← takeDigits 2 s
  let s ← expectUnit 58 s
  let (minute, s) ← takeDigits 2 s
  let s ← expectUnit 58 s
  let (second, s) ← takeDigits 2 s
  let (ms, s) ← takeMilliseconds s
  return (⟨year, month, day, hour, minute, second, ms⟩, s)

/-- 24:00:00.000 is the end of the day. -/
def DateFields.inRange (f : DateFields) : Bool :=
  1 ≤ f.month && f.month ≤ 12 && 1 ≤ f.day && f.day ≤ 31 && f.minute ≤ 59 && f.second ≤ 59 &&
    (f.hour ≤ 23 || (f.hour == 24 && f.minute == 0 && f.second == 0 && f.ms == 0))

def DateFields.time (f : DateFields) (offset : ℤ) : ℤ :=
  daysFromCivil f.year f.month f.day * 86400000 +
    (((f.hour * 60 + f.minute : ℤ) - offset) * 60 + f.second) * 1000 + f.ms

/-- The time values a date can hold. -/
def inTimeRange (time : ℤ) : Bool := -8640000000000000 ≤ time && time ≤ 8640000000000000

/-- The time value of `new Date(text)`; `none` is an invalid date. -/
def dateParse (text : JsString) : Option ℤ := do
  let (fields, zone) ← takeFields text
  let offset ← zoneMinutes zone
  let time := fields.time offset
  if fields.inRange && inTimeRange time then some time else none

/-! ## The calendar -/

/-- The year of its 400-year era a day of the era falls in, counted from March. -/
def eraYear (day : ℕ) : ℕ := (day - day / 1460 + day / 36524 - day / 146096) / 365

def eraYearStart (year : ℕ) : ℕ := 365 * year + year / 4 - year / 100

theorem eraYear_mono : Monotone eraYear := by
  refine monotone_nat_of_le_succ fun n => Nat.div_le_div_right ?_
  omega

/-- The first and the last day of every year of an era. -/
theorem eraYear_start : ∀ year < 400, eraYear (eraYearStart year) = year ∧
    eraYear (eraYearStart (year + 1) - 1) = year := by
  decide +kernel

theorem eraYear_bounds {day : ℕ} (h : day < 146097) :
    eraYear day ≤ 399 ∧ eraYearStart (eraYear day) ≤ day ∧
      day ≤ eraYearStart (eraYear day) + 365 := by
  have hyear : eraYear day ≤ 399 := eraYear_mono (Nat.le_of_lt_succ h)
  refine ⟨hyear, ?_, ?_⟩
  · by_contra hlt
    obtain ⟨year, hsucc⟩ : ∃ year, eraYear day = year + 1 := by
      refine Nat.exists_eq_succ_of_ne_zero fun hzero => ?_
      rw [hzero] at hlt
      exact hlt (Nat.zero_le day)
    rw [hsucc] at hlt
    have hlast := (eraYear_start year (by omega)).2
    have hle : eraYear day ≤ eraYear (eraYearStart (year + 1) - 1) := eraYear_mono (by omega)
    omega
  · by_contra hlt
    have hstep : eraYearStart (eraYear day + 1) ≤ eraYearStart (eraYear day) + 366 := by
      unfold eraYearStart
      omega
    by_cases hmax : eraYear day = 399
    · rw [hmax] at hlt
      have hstart : eraYearStart 399 = 145731 := by decide
      omega
    · have hfirst := (eraYear_start (eraYear day + 1) (by omega)).1
      have hle : eraYear (eraYearStart (eraYear day + 1)) ≤ eraYear day :=
        eraYear_mono (by omega)
      omega

/-- Back from a day of a year that begins in March. -/
theorem daysFromCivil_march (era : ℤ) {yearOfEra dayOfYear : ℕ} (hyear : yearOfEra ≤ 399)
    (hday : dayOfYear ≤ 365) :
    let march := (5 * dayOfYear + 2) / 153
    let month := if march < 10 then march + 3 else march - 9
    let day := dayOfYear - (153 * march + 2) / 5 + 1
    daysFromCivil (yearOfEra + era * 400 + (if month ≤ 2 then 1 else 0)) month day =
        era * 146097 + (eraYearStart yearOfEra + dayOfYear : ℕ) - 719468 ∧
      1 ≤ month ∧ month ≤ 12 ∧ 1 ≤ day ∧ day ≤ 31 := by
  intro march month day
  have hmarch : march ≤ 11 := by omega
  have hshifted : (if month ≤ 2 then
      (yearOfEra + era * 400 + (if month ≤ 2 then 1 else 0) : ℤ) - 1
      else yearOfEra + era * 400 + (if month ≤ 2 then 1 else 0)) = yearOfEra + era * 400 := by
    split_ifs <;> ring
  have hmonth : (if month ≤ 2 then month + 9 else month - 3) = march := by
    simp only [month]
    split_ifs <;> omega
  have hrest : 1 ≤ month ∧ month ≤ 12 ∧ 1 ≤ day ∧ day ≤ 31 := by
    simp only [month, day, march]
    split_ifs <;> omega
  refine ⟨?_, hrest⟩
  have hera : (yearOfEra + era * 400 : ℤ) / 400 = era := by omega
  have hmod : (yearOfEra + era * 400 : ℤ) % 400 = yearOfEra := by omega
  simp only [daysFromCivil, hshifted, hmonth, hera, hmod, eraYearStart, day]
  omega

/-- `civilFromDays` gives a date of the day, and a real one. -/
theorem civilFromDays_spec (days : ℤ) :
    daysFromCivil (civilFromDays days).1 (civilFromDays days).2.1 (civilFromDays days).2.2 =
        days ∧
      1 ≤ (civilFromDays days).2.1 ∧ (civilFromDays days).2.1 ≤ 12 ∧
      1 ≤ (civilFromDays days).2.2 ∧ (civilFromDays days).2.2 ≤ 31 := by
  have hlt : ((days + 719468) % 146097).toNat < 146097 := by omega
  obtain ⟨hyear, hstart, hend⟩ := eraYear_bounds hlt
  have hspec := daysFromCivil_march ((days + 719468) / 146097) hyear
    (Nat.sub_le_of_le_add ((Nat.add_comm _ _) ▸ hend))
  refine ⟨hspec.1.trans ?_, hspec.2⟩
  rw [Nat.add_sub_cancel' hstart]
  omega

/-! ## Reading what `toISOString` writes -/

theorem naturalDigits_length_le {width n : ℕ} (hwidth : 0 < width) (h : n < 10 ^ width) :
    (naturalDigits n).length ≤ width := by
  unfold naturalDigits
  split_ifs
  · exact hwidth
  · simpa [positiveDigits] using (Nat.digits_length_le_iff (by norm_num) n).mpr h

theorem padDigits_eq {width n : ℕ} (hwidth : 0 < width) (h : n < 10 ^ width) :
    ∃ digits : List Digit, padDigits width n = digits.map digitUnit ∧
      digits.length = width ∧ decimalValue digits = n := by
  have hlength := naturalDigits_length_le hwidth h
  refine ⟨List.replicate (width - (naturalDigits n).length) 0 ++ naturalDigits n, ?_, ?_, ?_⟩
  · rw [padDigits, List.map_append, List.map_replicate, List.length_map]
    rfl
  · rw [List.length_append, List.length_replicate]
    omega
  · rw [decimalValue_append, decimalValue_replicate_zero, decimalValue_naturalDigits]
    omega

theorem mapM_digit?_digitUnit (digits : List Digit) :
    (digits.map digitUnit).mapM digit? = some digits := by
  induction digits with
  | nil => rfl
  | cons d rest ih => simp [List.mapM_cons, ih]

theorem takeDigits_padDigits {width n : ℕ} (hwidth : 0 < width) (h : n < 10 ^ width)
    (rest : JsString) : takeDigits width (padDigits width n ++ rest) = some (n, rest) := by
  obtain ⟨digits, hpad, hlength, hvalue⟩ := padDigits_eq hwidth h
  have hmap : (digits.map digitUnit).length = width := by rw [List.length_map, hlength]
  rw [takeDigits, hpad, List.take_left' hmap, List.drop_left' hmap, if_neg (by omega),
    mapM_digit?_digitUnit, Option.map_some, hvalue]

theorem takeYear_yearText {year : ℤ} (h : -1000000 < year ∧ year < 1000000) (rest : JsString) :
    takeYear (yearText year ++ rest) = some (year, rest) := by
  unfold yearText
  split_ifs with hfour hneg
  · obtain ⟨digits, hpad, hlength, hvalue⟩ := padDigits_eq
      (show 0 < 4 by norm_num) (show year.toNat < 10 ^ 4 by omega)
    have htake := takeDigits_padDigits (show 0 < 4 by norm_num)
      (show year.toNat < 10 ^ 4 by omega) rest
    cases digits with
    | nil => cases hlength
    | cons d digits =>
        have hsign : ∀ d : Digit, digitUnit d ≠ 43 ∧ digitUnit d ≠ 45 := by decide
        rw [hpad] at htake ⊢
        unfold takeYear
        split
        · rename_i heq
          exact absurd (List.cons.inj heq).1 (hsign d).1
        · rename_i heq
          exact absurd (List.cons.inj heq).1 (hsign d).2
        · rw [htake, Option.map_some, Int.toNat_of_nonneg hfour.1]
  · rw [List.cons_append]
    simp only [takeYear]
    rw [takeDigits_padDigits (by norm_num) (by omega), Option.map_some]
    congr 2
    omega
  · rw [List.cons_append]
    simp only [takeYear]
    rw [takeDigits_padDigits (by norm_num) (by omega), Option.map_some]
    congr 2
    omega

theorem civilFromDays_year_bounds (days : ℤ) (h : -100000000 ≤ days ∧ days ≤ 100000000) :
    -1000000 < (civilFromDays days).1 ∧ (civilFromDays days).1 < 1000000 := by
  have hlt : ((days + 719468) % 146097).toNat < 146097 := by omega
  obtain ⟨hyear, -, -⟩ := eraYear_bounds hlt
  unfold eraYear at hyear
  simp only [civilFromDays]
  split_ifs <;> omega

@[simp] theorem expectUnit_cons (c : CodeUnit) (rest : JsString) :
    expectUnit c (c :: rest) = some rest := by
  simp [expectUnit]

/-- The date-time format round trip. -/
theorem dateParse_toISOString {time : ℤ} (h : inTimeRange time = true) :
    dateParse (toISOString time) = some time := by
  have hrange : -8640000000000000 ≤ time ∧ time ≤ 8640000000000000 := by
    simpa [inTimeRange] using h
  obtain ⟨hcivil, hmonth, hmonth', hday, hday'⟩ := civilFromDays_spec (time / 86400000)
  have hyear := civilFromDays_year_bounds (time / 86400000) (by omega)
  have hms : (time % 86400000).toNat < 86400000 := by omega
  have htime : time = time / 86400000 * 86400000 + (time % 86400000).toNat := by omega
  set ms := (time % 86400000).toNat with hmsdef
  have hmonthDigits : (civilFromDays (time / 86400000)).2.1 < 10 ^ 2 := by omega
  have hdayDigits : (civilFromDays (time / 86400000)).2.2 < 10 ^ 2 := by omega
  have hfields : takeFields (toISOString time) =
      some (⟨(civilFromDays (time / 86400000)).1, (civilFromDays (time / 86400000)).2.1,
        (civilFromDays (time / 86400000)).2.2, ms / 3600000, ms / 60000 % 60, ms / 1000 % 60,
        ms % 1000⟩, [90]) := by
    simp only [toISOString, takeFields, List.append_assoc, List.cons_append, takeYear_yearText hyear,
      Option.bind_eq_bind, Option.bind_some, expectUnit_cons, ← hmsdef]
    rw [takeDigits_padDigits (by norm_num) hmonthDigits]
    simp only [Option.bind_some, expectUnit_cons]
    rw [takeDigits_padDigits (by norm_num) hdayDigits]
    simp only [Option.bind_some, expectUnit_cons]
    rw [takeDigits_padDigits (by norm_num) (by omega)]
    simp only [Option.bind_some, expectUnit_cons]
    rw [takeDigits_padDigits (by norm_num) (by omega)]
    simp only [Option.bind_some, expectUnit_cons]
    rw [takeDigits_padDigits (by norm_num) (by omega)]
    simp only [Option.bind_some, takeMilliseconds]
    rw [takeDigits_padDigits (by norm_num) (by omega)]
    rfl
  rw [dateParse, hfields]
  simp only [Option.bind_eq_bind, Option.bind_some, zoneMinutes]
  have hvalue : DateFields.time ⟨(civilFromDays (time / 86400000)).1,
      (civilFromDays (time / 86400000)).2.1, (civilFromDays (time / 86400000)).2.2, ms / 3600000,
      ms / 60000 % 60, ms / 1000 % 60, ms % 1000⟩ 0 = time := by
    rw [DateFields.time, hcivil]
    push_cast
    omega
  rw [hvalue, if_pos]
  simp only [h, DateFields.inRange, Bool.and_true, Bool.and_eq_true, Bool.or_eq_true,
    decide_eq_true_eq]
  exact ⟨⟨⟨⟨⟨⟨hmonth, hmonth'⟩, hday⟩, hday'⟩, by omega⟩, by omega⟩, Or.inl (by omega)⟩

example : dateParse (js "2024-02-29T12:30:00.250+02:00") = some 1709202600250 := by
  decide +kernel

/-! ## Dates of years with four digits -/

theorem takeYear_digit {c : CodeUnit} {rest s : JsString} {year : ℤ} (hc : (digit? c).isSome)
    (h : takeYear (c :: rest) = some (year, s)) : 0 ≤ year := by
  unfold takeYear at h
  split at h
  · rename_i heq
    obtain ⟨rfl, -⟩ := List.cons.inj heq
    exact absurd hc (by decide)
  · rename_i heq
    obtain ⟨rfl, -⟩ := List.cons.inj heq
    exact absurd hc (by decide)
  · obtain ⟨p, -, hp⟩ := Option.map_eq_some_iff.mp h
    obtain ⟨rfl, -⟩ := Prod.mk.inj hp
    exact Int.natCast_nonneg _

theorem takeFields_year {s rest : JsString} {fields : DateFields}
    (h : takeFields s = some (fields, rest)) : ∃ s', takeYear s = some (fields.year, s') := by
  simp only [takeFields, Option.bind_eq_bind, Option.bind_eq_some_iff, Prod.exists] at h
  obtain ⟨year, s', hyear, s1, _, month, s2, _, s3, _, day, s4, _, s5, _, hour, s6, _, s7, _,
    minute, s8, _, s9, _, second, s10, _, ms, s11, _, ⟨⟩⟩ := h
  exact ⟨s', hyear⟩

theorem zoneMinutes_lt {s : JsString} {offset : ℤ} (h : zoneMinutes s = some offset) :
    offset < 1440 := by
  unfold zoneMinutes at h
  split at h
  · obtain rfl := Option.some.inj h
    norm_num
  · simp only [Option.bind_eq_bind, Option.bind_eq_some_iff, Prod.exists] at h
    obtain ⟨hours, _, _, _, _, minutes, _, _, h⟩ := h
    split_ifs at h with hrange
    all_goals
      obtain rfl := Option.some.inj h
      push Not at hrange
      omega
  · cases h

/-- A year of four digits leaves room below. -/
theorem dateParse_lower {c : CodeUnit} {rest : JsString} {time : ℤ} (hc : (digit? c).isSome)
    (h : dateParse (c :: rest) = some time) : -8640000000000000 < time := by
  unfold dateParse at h
  obtain ⟨⟨fields, zone⟩, hfields, h⟩ := Option.bind_eq_some_iff.mp h
  obtain ⟨offset, hoffset, h⟩ := Option.bind_eq_some_iff.mp h
  obtain ⟨s', hyear⟩ := takeFields_year hfields
  have hpos := takeYear_digit hc hyear
  have hzone := zoneMinutes_lt hoffset
  dsimp only at h
  split_ifs at h with hrange
  obtain rfl := Option.some.inj h
  simp only [DateFields.inRange, Bool.and_eq_true, decide_eq_true_eq] at hrange
  unfold DateFields.time daysFromCivil
  dsimp only
  split_ifs <;> omega

end OpticsAgent.Ecma
