import Mathlib
import OpticsAgent.Docker.LogLines

/-!
The log parser against the formats docker prints: a timestamp and a message, and
in front of them, where compose prints, a container name and a bar. A prefix is
tried first, and what the expression takes for one may lie in the message.
-/

namespace OpticsAgent.Docker

open OpticsAgent.Ecma OpticsAgent.Node OpticsAgent.Lib

/-! ## Timestamps -/

inductive Zone where
  | utc
  | offset (west : Bool) (hours minutes : ℕ) (hours_le : hours ≤ 23) (minutes_le : minutes ≤ 59)

namespace Zone

def text : Zone → JsString
  | utc => [90]
  | offset west hours minutes _ _ =>
      (if west then 45 else 43) :: (padDigits 2 hours ++ 58 :: padDigits 2 minutes)

/-- East of Greenwich. -/
def minutes : Zone → ℤ
  | utc => 0
  | offset west hours minutes _ _ =>
      if west then -(hours * 60 + minutes : ℤ) else hours * 60 + minutes

end Zone

def daysInMonth (year month : ℕ) : ℕ :=
  if month = 2 then if year % 4 = 0 ∧ (year % 100 ≠ 0 ∨ year % 400 = 0) then 29 else 28
  else if month = 4 ∨ month = 6 ∨ month = 9 ∨ month = 11 then 30
  else 31

/-- An RFC 3339 time; without digits there is no fraction. -/
structure DockerTime where
  year : ℕ
  month : ℕ
  day : ℕ
  hour : ℕ
  minute : ℕ
  second : ℕ
  fraction : List Digit
  zone : Zone
  year_le : year ≤ 9999
  month_ge : 1 ≤ month
  month_le : month ≤ 12
  day_ge : 1 ≤ day
  day_le : day ≤ daysInMonth year month
  hour_le : hour ≤ 23
  minute_le : minute ≤ 59
  second_le : second ≤ 59

namespace DockerTime

def fractionText (t : DockerTime) : JsString :=
  if t.fraction = [] then [] else 46 :: t.fraction.map digitUnit

def base (t : DockerTime) : JsString :=
  stampBase t.year t.month t.day t.hour t.minute t.second

def text (t : DockerTime) : JsString := t.base ++ (t.fractionText ++ t.zone.text)

/-- The whole milliseconds of the fraction. -/
def milliseconds (t : DockerTime) : ℕ :=
  decimalValue t.fraction * 1000 / 10 ^ t.fraction.length

/-- The time in milliseconds, the rest of the fraction cut off. -/
def time (t : DockerTime) : ℤ :=
  daysFromCivil t.year t.month t.day * 86400000 +
    (((t.hour * 60 + t.minute : ℤ) - t.zone.minutes) * 60 + t.second) * 1000 + t.milliseconds

def stamp (t : DockerTime) : Stamp := ⟨t.base, t.fractionText, t.zone.text⟩

theorem day_le_31 (t : DockerTime) : t.day ≤ 31 := by
  refine t.day_le.trans ?_
  unfold daysInMonth
  split_ifs <;> omega

end DockerTime

/-! ## Reading a timestamp back -/

theorem isDigit_zone (zone : Zone) :
    ∃ c rest, zone.text = c :: rest ∧ isDigit c = false ∧ c ≠ 46 := by
  cases zone with
  | utc => exact ⟨90, [], rfl, by decide⟩
  | offset west hours minutes _ _ =>
      cases west with
      | true => exact ⟨45, _, rfl, by decide⟩
      | false => exact ⟨43, _, rfl, by decide⟩

theorem takeZone_text (zone : Zone) (rest : JsString) :
    takeZone (zone.text ++ rest) = some (zone.text, rest) := by
  cases zone with
  | utc => rfl
  | offset west hours minutes hhours hminutes =>
      have hshape : js "dd:dd" = List.replicate 2 100 ++ 58 :: (List.replicate 2 100 ++ []) := by
        decide +kernel
      have htake : takeShape (js "dd:dd")
          (padDigits 2 hours ++ 58 :: (padDigits 2 minutes ++ rest)) =
            some (padDigits 2 hours ++ 58 :: padDigits 2 minutes, rest) := by
        rw [hshape, takeShape_digits (by norm_num) (by omega), takeShape_mark (by decide),
          takeShape_digits (by norm_num) (by omega), takeShape]
        simp
      cases west with
      | true => simp [Zone.text, takeZone, htake]
      | false => simp [Zone.text, takeZone, htake]

theorem takeFraction_text (t : DockerTime) (rest : JsString) :
    takeFraction (t.fractionText ++ (t.zone.text ++ rest)) =
      (t.fractionText, t.zone.text ++ rest) := by
  obtain ⟨c, tail, hzone, hdigit, hpoint⟩ := isDigit_zone t.zone
  rw [hzone, List.cons_append]
  unfold DockerTime.fractionText
  split_ifs with hfraction
  · rw [List.nil_append]
    unfold takeFraction
    split
    · rename_i heq
      exact absurd (List.cons.inj heq).1 hpoint
    · rfl
  · exact takeFraction_digits hfraction hdigit _

theorem takeStamp_text (t : DockerTime) (rest : JsString) :
    takeStamp (t.text ++ rest) = some (t.stamp, rest) := by
  have hday := t.day_le_31
  have hyear := t.year_le
  have hmonth := t.month_le
  have hhour := t.hour_le
  have hminute := t.minute_le
  have hsecond := t.second_le
  unfold takeStamp DockerTime.text
  rw [List.append_assoc, List.append_assoc, DockerTime.base,
    takeShape_stampBase (by omega) (by omega) (by omega) (by omega) (by omega) (by omega)]
  simp only [Option.bind_eq_bind, Option.bind_some, takeFraction_text, takeZone_text]
  rfl

/-- The three digits the agent keeps. -/
def keptDigits (fraction : List Digit) : List Digit :=
  fraction.take 3 ++ List.replicate (3 - (fraction.take 3).length) 0

theorem decimalValue_lt (digits : List Digit) : decimalValue digits < 10 ^ digits.length := by
  induction digits using List.reverseRecOn with
  | nil => simp [decimalValue]
  | append_singleton digits d ih =>
      rw [decimalValue_append, List.length_append, List.length_singleton, pow_succ]
      have hd := d.isLt
      have hone : decimalValue [d] = d.val := by simp [decimalValue]
      rw [hone]
      omega

theorem length_keptDigits (fraction : List Digit) : (keptDigits fraction).length = 3 := by
  rw [keptDigits, List.length_append, List.length_replicate, List.length_take]
  omega

theorem decimalValue_keptDigits (fraction : List Digit) :
    decimalValue (keptDigits fraction) =
      decimalValue fraction * 1000 / 10 ^ fraction.length := by
  rcases le_or_gt fraction.length 3 with hshort | hlong
  · have hpow : (1000 : ℕ) = 10 ^ (3 - fraction.length) * 10 ^ fraction.length := by
      rw [← pow_add, Nat.sub_add_cancel hshort]
      norm_num
    rw [keptDigits, List.take_of_length_le hshort, decimalValue_append,
      decimalValue_replicate_zero, List.length_replicate, hpow, ← mul_assoc,
      Nat.mul_div_cancel _ (by positivity), add_zero]
  · have hsplit := List.take_append_drop 3 fraction
    have htake : (fraction.take 3).length = 3 := by
      rw [List.length_take]
      omega
    have hrest := decimalValue_lt (fraction.drop 3)
    have hlength : fraction.length = 3 + (fraction.drop 3).length := by
      rw [List.length_drop]
      omega
    have hvalue : decimalValue fraction =
        decimalValue (fraction.take 3) * 10 ^ (fraction.drop 3).length +
          decimalValue (fraction.drop 3) := by
      rw [← decimalValue_append, hsplit]
    have hthousand : (10 : ℕ) ^ (3 + (fraction.drop 3).length) =
        10 ^ (fraction.drop 3).length * 1000 := by
      rw [pow_add]
      ring
    rw [keptDigits, htake, Nat.sub_self, List.replicate_zero, List.append_nil, hlength, hthousand,
      Nat.mul_div_mul_right _ _ (by norm_num), hvalue, Nat.mul_comm (decimalValue _),
      Nat.mul_add_div (by positivity), Nat.div_eq_of_lt hrest, add_zero]

/-- The fraction as `new Date` is given it. -/
theorem milliseconds_stamp (t : DockerTime) :
    t.stamp.milliseconds =
      if t.fraction = [] then [] else 46 :: (keptDigits t.fraction).map digitUnit := by
  unfold Stamp.milliseconds DockerTime.stamp DockerTime.fractionText
  by_cases hfraction : t.fraction = []
  · simp [hfraction]
  · have hzero : ∀ n, List.replicate n (48 : CodeUnit) =
        (List.replicate n (0 : Digit)).map digitUnit := by
      intro n
      rw [List.map_replicate]
      rfl
    simp only [if_neg hfraction, List.cons_ne_nil, if_false, List.take_succ_cons, keptDigits,
      List.length_cons, List.map_append, ← hzero, List.map_take, List.length_map,
      List.length_take, List.cons_append]
    congr 3
    omega

theorem takeDigits_digits (digits : List Digit) (rest : JsString) :
    takeDigits digits.length (digits.map digitUnit ++ rest) = some (decimalValue digits, rest) := by
  have hlength : (digits.map digitUnit).length = digits.length := List.length_map _
  rw [takeDigits, List.take_left' hlength, List.drop_left' hlength, if_neg (by omega),
    mapM_digit?_digitUnit, Option.map_some]

theorem takeMilliseconds_text (t : DockerTime) :
    takeMilliseconds (t.stamp.milliseconds ++ t.zone.text) =
      some (t.milliseconds, t.zone.text) := by
  obtain ⟨c, tail, hzone, -, hpoint⟩ := isDigit_zone t.zone
  rw [milliseconds_stamp, DockerTime.milliseconds, ← decimalValue_keptDigits]
  split_ifs with hfraction
  · rw [hfraction, hzone, List.nil_append]
    unfold takeMilliseconds
    split
    · rename_i heq
      exact absurd (List.cons.inj heq).1 hpoint
    · rfl
  · have htake := takeDigits_digits (keptDigits t.fraction) t.zone.text
    rw [length_keptDigits] at htake
    exact htake

theorem zoneMinutes_text (zone : Zone) : zoneMinutes zone.text = some zone.minutes := by
  cases zone with
  | utc => rfl
  | offset west hours minutes hhours hminutes =>
      have hread : takeDigits 2 (padDigits 2 hours ++ 58 :: padDigits 2 minutes) =
          some (hours, 58 :: padDigits 2 minutes) := takeDigits_padDigits (by norm_num) (by omega) _
      have hrest : takeDigits 2 (padDigits 2 minutes) = some (minutes, []) := by
        have hpad := takeDigits_padDigits (show 0 < 2 by norm_num)
          (show minutes < 10 ^ 2 by omega) []
        rwa [List.append_nil] at hpad
      have hrange : ¬ (23 < hours ∨ 59 < minutes) := by omega
      cases west with
      | true => simp [zoneMinutes, Zone.text, Zone.minutes, hread, hrest, hrange]
      | false => simp [zoneMinutes, Zone.text, Zone.minutes, hread, hrest, hrange]

theorem takeFields_text (t : DockerTime) :
    takeFields (t.base ++ (t.stamp.milliseconds ++ t.zone.text)) =
      some (⟨t.year, t.month, t.day, t.hour, t.minute, t.second, t.milliseconds⟩,
        t.zone.text) := by
  have hday := t.day_le_31
  have hyear := t.year_le
  have hmonth := t.month_le
  have hhour := t.hour_le
  have hminute := t.minute_le
  have hsecond := t.second_le
  have hyearText : padDigits 4 t.year = yearText t.year := by
    rw [yearText, if_pos (by omega), Int.toNat_natCast]
  simp only [DockerTime.base, stampBase, takeFields, List.append_assoc, List.cons_append, hyearText]
  rw [takeYear_yearText (by omega)]
  simp only [Option.bind_eq_bind, Option.bind_some, expectUnit_cons]
  rw [takeDigits_padDigits (by norm_num) (by omega)]
  simp only [Option.bind_some, expectUnit_cons]
  rw [takeDigits_padDigits (by norm_num) (by omega)]
  simp only [Option.bind_some, expectUnit_cons]
  rw [takeDigits_padDigits (by norm_num) (by omega)]
  simp only [Option.bind_some, expectUnit_cons]
  rw [takeDigits_padDigits (by norm_num) (by omega)]
  simp only [Option.bind_some, expectUnit_cons]
  rw [takeDigits_padDigits (by norm_num) (by omega)]
  simp only [Option.bind_some, takeMilliseconds_text]
  rfl

theorem inTimeRange_time (t : DockerTime) : inTimeRange t.time = true := by
  have hzone : -1440 < t.zone.minutes ∧ t.zone.minutes < 1440 := by
    cases t.zone with
    | utc => exact ⟨by decide, by decide⟩
    | offset west hours minutes hhours hminutes =>
        unfold Zone.minutes
        dsimp only
        split_ifs <;> omega
  have hms : t.milliseconds < 1000 := by
    rw [DockerTime.milliseconds, ← decimalValue_keptDigits]
    have hlt := decimalValue_lt (keptDigits t.fraction)
    rw [length_keptDigits] at hlt
    exact hlt
  have hday := t.day_le_31
  have hyear := t.year_le
  have hmonth := t.month_le
  have hhour := t.hour_le
  have hminute := t.minute_le
  have hsecond := t.second_le
  have hdays : -800000 < daysFromCivil t.year t.month t.day ∧
      daysFromCivil t.year t.month t.day < 3000000 := by
    unfold daysFromCivil
    dsimp only
    split_ifs <;> omega
  have hbounds : -8640000000000000 ≤ t.time ∧ t.time ≤ 8640000000000000 := by
    unfold DockerTime.time
    omega
  simpa [inTimeRange] using hbounds

/-- The timestamp is read as its time, to the millisecond. -/
theorem time_stamp (t : DockerTime) : t.stamp.time = some t.time := by
  have hday := t.day_le_31
  have hdayPos := t.day_ge
  have hmonthPos := t.month_ge
  have hmonth := t.month_le
  have hhour := t.hour_le
  have hminute := t.minute_le
  have hsecond := t.second_le
  have hrange := inTimeRange_time t
  change dateParse (t.base ++ t.stamp.milliseconds ++ t.zone.text) = _
  rw [List.append_assoc, dateParse, takeFields_text]
  simp only [Option.bind_eq_bind, Option.bind_some, zoneMinutes_text]
  refine if_pos ?_
  simp only [DateFields.inRange, Bool.and_eq_true, Bool.or_eq_true, decide_eq_true_eq]
  exact ⟨⟨⟨⟨⟨⟨⟨hmonthPos, hmonth⟩, hdayPos⟩, hday⟩, hminute⟩, hsecond⟩, Or.inl hhour⟩, hrange⟩

/-! ## Messages -/

/-- A message without line breaks, escapes, and blanks at its ends. -/
structure Message where
  text : JsString
  oneLine : ∀ c ∈ text, isLineTerminator c = false
  plain : stripAnsi text = text
  trimmed : trim text = text

/-- Behind a blank and a bar comes a timestamp, up to the end or a blank. -/
def BarredStamp (s : JsString) : Prop :=
  ∃ front rest, s = front ++ rest ∧ ((takeBar rest).bind takeMessage).isSome

theorem takePrefixed_eq_none_iff {s : JsString} (h : ∀ c ∈ s, isLineTerminator c = false) :
    takePrefixed s = none ↔ ¬ BarredStamp s := by
  induction s with
  | nil =>
      refine iff_of_true rfl ?_
      rintro ⟨front, rest, hsplit, hfound⟩
      obtain ⟨-, rfl⟩ := List.append_eq_nil_iff.mp hsplit.symm
      cases hfound
  | cons c s ih =>
      obtain ⟨hc, hs⟩ := List.forall_mem_cons.mp h
      have hcons : BarredStamp (c :: s) ↔
          ((takeBar (c :: s)).bind takeMessage).isSome ∨ BarredStamp s := by
        constructor
        · rintro ⟨front, rest, hsplit, hfound⟩
          cases front with
          | nil =>
              left
              rwa [hsplit]
          | cons d front => exact .inr ⟨front, rest, (List.cons.inj hsplit).2, hfound⟩
        · rintro (hhere | ⟨front, rest, hsplit, hfound⟩)
          · exact ⟨[], c :: s, rfl, hhere⟩
          · exact ⟨c :: front, rest, by rw [hsplit]; rfl, hfound⟩
      rw [takePrefixed, hcons, not_or, ← ih hs]
      unfold extendPrefix
      cases (takeBar (c :: s)).bind takeMessage with
      | some found => simp
      | none => simp [hc]

/-- A front without blanks is carried along. -/
theorem takePrefixed_append {front : JsString}
    (h : ∀ c ∈ front, isTrimmed c = false ∧ isLineTerminator c = false) (s : JsString) :
    takePrefixed (front ++ s) = (takePrefixed s).map fun r => (front ++ r.1, r.2) := by
  induction front with
  | nil => simp
  | cons c front ih =>
      obtain ⟨⟨hblank, hterminator⟩, hfront⟩ := List.forall_mem_cons.mp h
      have hbar : takeBar (c :: (front ++ s)) = none := by
        rw [takeBar, List.takeWhile_cons_of_neg (by simp [hblank]), if_pos rfl]
      rw [List.cons_append, takePrefixed, hbar, ih hfront]
      unfold extendPrefix
      simp [hterminator]
      rfl

/-! ## The line as the agent cleans it -/

theorem isLineTerminator_of_isStampUnit {c : CodeUnit} (h : isStampUnit c = true) :
    isLineTerminator c = false := by
  simp only [isStampUnit, Bool.and_eq_true, decide_eq_true_eq] at h
  simp only [isLineTerminator, Bool.or_eq_false_iff, beq_eq_false_iff_ne, ne_eq, Fin.ext_iff]
  omega

theorem DockerTime.text_units (t : DockerTime) : ∀ c ∈ t.text, isStampUnit c = true := by
  have hdigit : ∀ d : Digit, isStampUnit (digitUnit d) = true := by decide
  have hfraction : ∀ c ∈ t.fractionText, isStampUnit c = true := by
    unfold DockerTime.fractionText
    split_ifs
    · exact List.forall_mem_nil _
    · refine List.forall_mem_cons.mpr ⟨by decide, fun c hc => ?_⟩
      obtain ⟨d, -, rfl⟩ := List.mem_map.mp hc
      exact hdigit d
  have hzone : ∀ c ∈ t.zone.text, isStampUnit c = true := by
    cases t.zone with
    | utc => exact List.forall_mem_singleton.mpr (by decide)
    | offset west hours minutes _ _ =>
        refine List.forall_mem_cons.mpr ⟨by cases west <;> decide, ?_⟩
        exact List.forall_mem_append.mpr ⟨padDigits_units _ _,
          List.forall_mem_cons.mpr ⟨by decide, padDigits_units _ _⟩⟩
  refine List.forall_mem_append.mpr ⟨?_, List.forall_mem_append.mpr ⟨hfraction, hzone⟩⟩
  unfold DockerTime.base stampBase
  simp only [List.append_assoc, List.forall_mem_append, List.forall_mem_cons, List.cons_append]
  exact ⟨padDigits_units _ _, by decide, padDigits_units _ _, by decide, padDigits_units _ _,
    by decide, padDigits_units _ _, by decide, padDigits_units _ _, by decide,
    padDigits_units _ _⟩

theorem DockerTime.text_ne_nil (t : DockerTime) : t.text ≠ [] := by
  unfold DockerTime.text DockerTime.base stampBase
  simp

/-- Text that trimming leaves alone has no blank at either end. -/
theorem ends_of_trim {s : JsString} (h : trim s = s) :
    (∀ c, s.head? = some c → isTrimmed c = false) ∧
      ∀ c, s.getLast? = some c → isTrimmed c = false := by
  have hlength := congrArg List.length h
  rw [trim, List.length_reverse] at hlength
  have hback := (List.dropWhile_suffix (p := isTrimmed)
    (l := (s.dropWhile isTrimmed).reverse)).length_le
  rw [List.length_reverse] at hback
  have hfront : s.dropWhile isTrimmed = s :=
    (List.dropWhile_suffix _).eq_of_length_le (by omega)
  have hboth : s.reverse.dropWhile isTrimmed = s.reverse := by
    rw [hfront] at hlength
    exact (List.dropWhile_suffix _).eq_of_length_le (by rw [hlength, List.length_reverse])
  have hhead : ∀ {t : JsString}, t.dropWhile isTrimmed = t →
      ∀ c, t.head? = some c → isTrimmed c = false := by
    intro t ht c hc
    have hnot := List.head?_dropWhile_not isTrimmed t
    rw [ht, hc] at hnot
    simpa using hnot
  refine ⟨hhead hfront, fun c hc => hhead hboth c ?_⟩
  rwa [List.head?_reverse]

/-- What is left of the message behind the timestamp. -/
def Message.tail (m : Message) : JsString := if m.text = [] then [] else 32 :: m.text

theorem cleanLine_message {front : JsString} (hfront : front ≠ [])
    (hplain : ∀ c ∈ front, c ≠ 27)
    (hfirst : ∀ c, front.head? = some c → isTrimmed c = false)
    (hlast : ∀ c, front.getLast? = some c → isTrimmed c = false) (m : Message) :
    cleanLine (front ++ 32 :: m.text) = front ++ m.tail := by
  have hspace : ∀ c ∈ front ++ [32], c ≠ 27 :=
    List.forall_mem_append.mpr ⟨hplain, List.forall_mem_singleton.mpr (by decide)⟩
  have hstrip : stripAnsi (front ++ 32 :: m.text) = front ++ 32 :: m.text := by
    have hsplit : front ++ 32 :: m.text = (front ++ [32]) ++ m.text := by simp
    have hmessage : stripFrom 0 m.text = m.text := m.plain
    rw [stripAnsi, hsplit, stripFrom_of_plain hspace, hmessage]
  obtain ⟨-, hend⟩ := ends_of_trim m.trimmed
  rw [cleanLine, hstrip, Message.tail]
  split_ifs with hempty
  · rw [hempty, trim_append_right (List.forall_mem_singleton.mpr (by decide)), List.append_nil]
    exact trim_of_ends hfirst hlast
  · refine trim_of_ends (fun c hc => hfirst c ?_) fun c hc => hend c ?_
    · rwa [List.head?_append_of_ne_nil _ hfront] at hc
    · rwa [List.getLast?_append_of_ne_nil _ (by simp), List.getLast?_cons_of_ne_nil hempty] at hc

theorem takeMessage_text (t : DockerTime) (m : Message) :
    takeMessage (t.text ++ m.tail) = some (t.stamp, m.text) := by
  rw [takeMessage, takeStamp_text]
  unfold Message.tail
  simp only [Option.bind_eq_bind, Option.bind_some]
  by_cases hempty : m.text = []
  · simp [hempty]
  · have hdrop : (32 :: m.text).dropWhile isTrimmed = m.text := by
      rw [List.dropWhile_cons_of_pos (by decide)]
      exact dropWhile_of_head (ends_of_trim m.trimmed).1
    have htake : (32 :: m.text).takeWhile isTrimmed ≠ [] := by
      rw [List.takeWhile_cons_of_pos (by decide)]
      exact List.cons_ne_nil _ _
    have hrest : takeRest m.text = some m.text := by
      refine if_neg ?_
      rw [Bool.not_eq_true, List.any_eq_false]
      exact fun c hc => by simp [m.oneLine c hc]
    simp [hempty, hdrop, htake, hrest]

/-! ## What is left of a line behind a timestamp in it -/

theorem length_takeShape {shape s taken rest : JsString}
    (h : takeShape shape s = some (taken, rest)) : s.length = shape.length + rest.length := by
  induction shape generalizing s taken with
  | nil =>
      obtain ⟨-, rfl⟩ := Prod.mk.inj (Option.some.inj h)
      simp
  | cons p shape ih =>
      cases s with
      | nil => cases h
      | cons c s =>
          rw [takeShape] at h
          split_ifs at h
          all_goals
            obtain ⟨found, hfound, heq⟩ := Option.map_eq_some_iff.mp h
            obtain ⟨-, rfl⟩ := Prod.mk.inj heq
            have hlength := ih hfound
            simp only [List.length_cons]
            omega

theorem length_takeFraction_le (s : JsString) : (takeFraction s).2.length ≤ s.length := by
  unfold takeFraction
  split
  · split_ifs
    · exact le_refl _
    · exact ((List.dropWhile_suffix _).length_le).trans (Nat.le_succ _)
  · exact le_refl _

theorem length_takeZone_le {s zone rest : JsString} (h : takeZone s = some (zone, rest)) :
    rest.length ≤ s.length := by
  unfold takeZone at h
  split at h
  · obtain ⟨-, rfl⟩ := Prod.mk.inj (Option.some.inj h)
    simp
  · split_ifs at h
    obtain ⟨found, hfound, heq⟩ := Option.map_eq_some_iff.mp h
    obtain ⟨-, rfl⟩ := Prod.mk.inj heq
    have hlength := length_takeShape hfound
    simp only [List.length_cons]
    omega
  · cases h

theorem length_takeMessage_lt {s message : JsString} {stamp : Stamp}
    (h : takeMessage s = some (stamp, message)) : message.length < s.length := by
  have hshape : (js "dddd-dd-ddTdd:dd:dd").length = 19 := by decide
  unfold takeMessage takeStamp at h
  obtain ⟨⟨found, rest⟩, hfound, h⟩ := Option.bind_eq_some_iff.mp h
  obtain ⟨⟨base, afterBase⟩, hbase, hfound⟩ := Option.bind_eq_some_iff.mp hfound
  obtain ⟨⟨zone, afterZone⟩, hzone, hfound⟩ := Option.bind_eq_some_iff.mp hfound
  obtain ⟨-, rfl⟩ := Prod.mk.inj (Option.some.inj hfound)
  have hlength := length_takeShape hbase
  have hfraction := length_takeFraction_le afterBase
  have hrest : afterZone.length ≤ (takeFraction afterBase).2.length := length_takeZone_le hzone
  dsimp only at h
  split_ifs at h with hempty
  · obtain ⟨-, rfl⟩ := Prod.mk.inj (Option.some.inj h)
    simp only [List.length_nil]
    omega
  · obtain ⟨text, htext, h⟩ := Option.bind_eq_some_iff.mp h
    obtain ⟨-, rfl⟩ := Prod.mk.inj (Option.some.inj h)
    unfold takeRest at htext
    split_ifs at htext
    obtain rfl := Option.some.inj htext
    have hdrop := (List.dropWhile_suffix (p := isTrimmed) (l := afterZone)).length_le
    omega

theorem length_takeBar_lt {s rest : JsString} (h : takeBar s = some rest) :
    rest.length < s.length := by
  unfold takeBar at h
  split_ifs at h
  split at h
  · rename_i tail hdrop
    obtain rfl := Option.some.inj h
    have hsuffix := (List.dropWhile_suffix (p := isTrimmed) (l := s)).length_le
    have hrest := (List.dropWhile_suffix (p := isTrimmed) (l := tail)).length_le
    rw [hdrop, List.length_cons] at hsuffix
    omega
  · cases h

/-- A message behind an inner bar is shorter by the bar at least. -/
theorem length_takePrefixed_lt {s front message : JsString} {stamp : Stamp}
    (h : takePrefixed s = some (front, stamp, message)) : message.length + 1 < s.length := by
  induction s generalizing front with
  | nil => cases h
  | cons c s ih =>
      rw [takePrefixed] at h
      unfold extendPrefix at h
      cases hhere : (takeBar (c :: s)).bind takeMessage with
      | some found =>
          rw [hhere] at h
          obtain ⟨-, rfl⟩ := Prod.mk.inj (Option.some.inj h)
          obtain ⟨rest, hbar, hfound⟩ := Option.bind_eq_some_iff.mp hhere
          have hrest := length_takeBar_lt hbar
          have hmessage := length_takeMessage_lt hfound
          omega
      | none =>
          rw [hhere] at h
          dsimp only at h
          split_ifs at h
          obtain ⟨⟨front', found⟩, hfound, hpair⟩ := Option.map_eq_some_iff.mp h
          obtain ⟨-, rfl⟩ := Prod.mk.inj hpair
          have hlength := ih hfound
          rw [List.length_cons]
          omega

/-! ## The formats read back -/

/-- The line is read as the message, under its time and its container. -/
def ReadsAs (stack : ℕ) (line : JsString) (defaultContainerName : Option JsString)
    (t : DockerTime) (m : Message) (containerName : JsString) : Prop :=
  ∃ entry, parseDockerLogLine stack line defaultContainerName = .ok entry ∧ entry.line = m.text ∧
    entry.timestamp = some (toISOString t.time) ∧ entry.containerName = some containerName

/-- What `docker logs` and what compose print for the message is read back. -/
structure Inverted (stack : ℕ) (t : DockerTime) (m : Message) : Prop where
  plain : ∀ containerName,
    ReadsAs stack (t.text ++ 32 :: m.text) (some containerName) t m containerName
  composed : ∀ (label : ComposeLabel) defaultContainerName,
    ReadsAs stack (labelText (some label) ++ t.text ++ 32 :: m.text) defaultContainerName t m
      label.name

theorem readsAs_of_match {stack : ℕ} {line : JsString} {t : DockerTime} {m : Message}
    (front : Option JsString) {defaultContainerName : Option JsString} {containerName : JsString}
    (h : matchTimestamp (cleanLine line) = some (front, t.stamp, m.text))
    (hname : containerOf front defaultContainerName = some containerName) :
    ReadsAs stack line defaultContainerName t m containerName := by
  let entry : DockerLogEntry :=
    { line := m.text
      timestamp := some (toISOString t.time)
      containerName := containerOf front defaultContainerName
      composeService := composeServiceOf (containerOf front defaultContainerName) }
  refine ⟨entry, ?_, rfl, rfl, hname⟩
  rw [parseDockerLogLine_of_match stack h]
  simp only [stampedEntry, time_stamp, toISOString?]
  rfl

theorem cleanLine_plain (t : DockerTime) (m : Message) :
    cleanLine (t.text ++ 32 :: m.text) = t.text ++ m.tail := by
  have hends : ∀ c ∈ t.text, isTrimmed c = false := fun c hc =>
    (isStampUnit_spec (t.text_units c hc)).1
  exact cleanLine_message t.text_ne_nil (fun c hc => (isStampUnit_spec (t.text_units c hc)).2)
    (fun c hc => hends c (List.mem_of_mem_head? hc))
    (fun c hc => hends c (List.mem_of_mem_getLast? hc)) m

theorem takePrefixed_text (t : DockerTime) (s : JsString) :
    takePrefixed (t.text ++ s) = (takePrefixed s).map fun r => (t.text ++ r.1, r.2) :=
  takePrefixed_append (fun c hc => ⟨(isStampUnit_spec (t.text_units c hc)).1,
    isLineTerminator_of_isStampUnit (t.text_units c hc)⟩) s

theorem takePrefixed_tail (m : Message) :
    takePrefixed m.tail = none ↔ ¬ BarredStamp (32 :: m.text) := by
  have hterminator : ∀ c ∈ 32 :: m.text, isLineTerminator c = false :=
    List.forall_mem_cons.mpr ⟨by decide, m.oneLine⟩
  rw [← takePrefixed_eq_none_iff hterminator]
  unfold Message.tail
  split_ifs with hempty
  · rw [hempty]
    exact iff_of_true rfl (by decide)
  · exact Iff.rfl

theorem readsAs_composed (stack : ℕ) (t : DockerTime) (m : Message) (label : ComposeLabel)
    (defaultContainerName : Option JsString) :
    ReadsAs stack (labelText (some label) ++ t.text ++ 32 :: m.text) defaultContainerName t m
      label.name := by
  have hspaces : ∀ c ∈ List.replicate (label.padding + 1) (32 : CodeUnit), isTrimmed c = true := by
    intro c hc
    rw [List.eq_of_mem_replicate hc]
    decide
  have hname : ∀ c ∈ label.name, isTrimmed c = false ∧ isLineTerminator c = false ∧ c ≠ 27 :=
    fun c hc => isNameUnit_spec (label.plain c hc)
  have hstamp : ∀ c ∈ t.text, isTrimmed c = false ∧ c ≠ 27 := fun c hc =>
    isStampUnit_spec (t.text_units c hc)
  have hclean : cleanLine (labelText (some label) ++ t.text ++ 32 :: m.text) =
      labelText (some label) ++ t.text ++ m.tail := by
    refine cleanLine_message (by simp [t.text_ne_nil]) ?_ (fun c hc => ?_) (fun c hc => ?_) m
    · refine List.forall_mem_append.mpr ⟨fun c hc => ?_, fun c hc => (hstamp c hc).2⟩
      rcases labelText_units (some label) c hc with h | rfl | rfl
      · exact (isNameUnit_spec h).2.2
      · decide
      · decide
    · rw [labelText, List.append_assoc, List.append_assoc,
        List.head?_append_of_ne_nil _ label.nonempty] at hc
      exact (hname c (List.mem_of_mem_head? hc)).1
    · rw [List.getLast?_append_of_ne_nil _ t.text_ne_nil] at hc
      exact (hstamp c (List.mem_of_mem_getLast? hc)).1
  have hhead : ∀ c, (t.text ++ m.tail).head? = some c → isTrimmed c = false := by
    intro c hc
    rw [List.head?_append_of_ne_nil _ t.text_ne_nil] at hc
    exact (hstamp c (List.mem_of_mem_head? hc)).1
  have hfound := takePrefixed_label label.plain (by simp) hspaces hhead (takeMessage_text t m)
  have htrim : trim label.name = label.name :=
    trim_of_ends (fun c hc => (hname c (List.mem_of_mem_head? hc)).1)
      fun c hc => (hname c (List.mem_of_mem_getLast? hc)).1
  refine readsAs_of_match (some label.name) ?_ ?_
  · have hline : labelText (some label) ++ t.text ++ m.tail = label.name ++
        (List.replicate (label.padding + 1) 32 ++ 124 :: 32 :: (t.text ++ m.tail)) := by
      simp [labelText]
    rw [hclean, hline, matchTimestamp, hfound]
  · simp only [containerOf, htrim, if_neg label.nonempty]

/-- The formats are read back exactly for the messages that hold no bar with a
timestamp behind it; compose's format is read back for all. -/
theorem log_format_inverted_iff (stack : ℕ) (t : DockerTime) (m : Message) :
    Inverted stack t m ↔ ¬ BarredStamp (32 :: m.text) := by
  rw [← takePrefixed_tail m]
  constructor
  · intro h
    by_contra hsome
    obtain ⟨⟨front, stamp, message⟩, hfound⟩ := Option.ne_none_iff_exists'.mp hsome
    have hmatch : matchTimestamp (cleanLine (t.text ++ 32 :: m.text)) =
        some (some (t.text ++ front), stamp, message) := by
      rw [cleanLine_plain, matchTimestamp, takePrefixed_text, hfound]
      rfl
    obtain ⟨entry, hentry, hline, -, -⟩ := h.plain []
    rw [parseDockerLogLine_of_match stack hmatch] at hentry
    have hmessage : entry.line = message := by
      cases htime : stamp.time with
      | none =>
          simp only [stampedEntry, htime] at hentry
          cases hentry
      | some time =>
          simp only [stampedEntry, htime] at hentry
          rw [← Except.ok.inj hentry]
    have hshort := length_takePrefixed_lt hfound
    have hlength := congrArg List.length (hmessage.symm.trans hline)
    unfold Message.tail at hshort
    split_ifs at hshort
    · simp at hshort
    · rw [List.length_cons] at hshort
      omega
  · intro hnone
    refine ⟨fun containerName => ?_, readsAs_composed stack t m⟩
    refine readsAs_of_match none ?_ rfl
    rw [cleanLine_plain, matchTimestamp, takePrefixed_text, hnone, takeMessage_text]
    rfl

/-! ## A message that looks like compose's output -/

def sampleStamp : DockerTime where
  year := 2026
  month := 1
  day := 5
  hour := 10
  minute := 0
  second := 0
  fraction := [1, 2, 3, 4, 5, 6, 7, 8, 9]
  zone := .utc
  year_le := by decide
  month_ge := by decide
  month_le := by decide
  day_ge := by decide
  day_le := by decide
  hour_le := by decide
  minute_le := by decide
  second_le := by decide

def barredText : JsString := js "replayed | 2025-12-31T23:59:59Z down"

theorem barredText_oneLine : ∀ c ∈ barredText, isLineTerminator c = false := by
  have hall : barredText.all (fun c => !isLineTerminator c) = true := by decide +kernel
  intro c hc
  simpa using List.all_eq_true.mp hall c hc

theorem barredText_plain : stripAnsi barredText = barredText := by
  decide +kernel

theorem barredText_trimmed : trim barredText = barredText := by
  decide +kernel

def barredMessage : Message :=
  ⟨barredText, barredText_oneLine, barredText_plain, barredText_trimmed⟩

/-- The message is cut at its own bar. -/
theorem log_format_inverted_fails : ¬ Inverted 1000 sampleStamp barredMessage := by
  intro h
  obtain ⟨entry, hentry, hline, -, -⟩ := h.plain (js "app")
  have hcut : (parseDockerLogLine 1000 (sampleStamp.text ++ 32 :: barredText)
      (some (js "app"))).toOption.map (·.line) = some (js "down") := by
    decide +kernel
  change parseDockerLogLine 1000 (sampleStamp.text ++ 32 :: barredText) _ = _ at hentry
  rw [hentry] at hcut
  have hwhole : entry.line = barredText := hline
  rw [Except.toOption, Option.map_some, hwhole] at hcut
  exact absurd (Option.some.inj hcut) (by decide +kernel)

end OpticsAgent.Docker
