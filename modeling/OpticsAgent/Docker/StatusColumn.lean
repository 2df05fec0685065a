import Mathlib
import OpticsAgent.Docker.ContainerListing

/-!
`healthFromStatus` on the status column of `docker ps`. The health of a running
container comes after the time, in brackets. No way docker words a time has the
letters of "healthy" in it, so what is found is what is in the brackets.
-/

namespace OpticsAgent.Docker

open OpticsAgent.Ecma OpticsAgent.Lib

def isAscii (s : JsString) : Bool := s.all fun c => c.val < 128

/-- `toLowerCase` changes the letters A to Z of ASCII text and nothing else. -/
def LowersAscii (casing : CaseMapping) : Prop :=
  ∀ s, isAscii s = true → casing.toLowerCase s = asciiCase.toLowerCase s

theorem isAscii_append (a b : JsString) : isAscii (a ++ b) = (isAscii a && isAscii b) :=
  List.all_append

theorem lower_append (a b : JsString) :
    asciiCase.toLowerCase (a ++ b) = asciiCase.toLowerCase a ++ asciiCase.toLowerCase b :=
  List.map_append

/-! ## Times -/

/-- Text without a colon, and without an h or without a y. -/
def isTimeText (s : JsString) : Bool :=
  !s.contains 58 && (!s.contains 104 || !s.contains 121)

def TimeWord.all : List TimeWord := [.lessThanASecond, .oneSecond, .aMinute, .anHour]

def TimeUnit.all : List TimeUnit := [.seconds, .minutes, .hours, .days, .weeks, .months, .years]

theorem timeTexts : ∀ text ∈ TimeWord.all.map TimeWord.text ++ TimeUnit.all.map TimeUnit.text,
    isAscii text = true ∧ isTimeText (asciiCase.toLowerCase text) = true := by
  decide +kernel

theorem contains_digits {c : CodeUnit} (hc : digit? c = none) (ds : List Digit) :
    (ds.map digitUnit).contains c = false := by
  rw [List.contains_eq_mem, decide_eq_false_iff_not]
  intro h
  obtain ⟨d, -, rfl⟩ := List.mem_map.mp h
  rw [digit?_digitUnit] at hc
  cases hc

theorem lower_digits (ds : List Digit) :
    asciiCase.toLowerCase (ds.map digitUnit) = ds.map digitUnit := by
  refine (List.map_map ..).trans ?_
  apply List.map_congr_left
  intro d _
  apply if_neg
  have hd := d.isLt
  change ¬ (65 ≤ 48 + d.val ∧ 48 + d.val ≤ 90)
  omega

theorem isAscii_digits (ds : List Digit) : isAscii (ds.map digitUnit) = true := by
  apply List.all_eq_true.mpr
  intro c hc
  obtain ⟨d, -, rfl⟩ := List.mem_map.mp hc
  have hd := d.isLt
  apply decide_eq_true
  change 48 + d.val < 128
  omega

theorem elapsedText (elapsed : Elapsed) : isAscii elapsed.text = true ∧
    isTimeText (asciiCase.toLowerCase elapsed.text) = true := by
  cases elapsed with
  | word w =>
      have hw : w ∈ TimeWord.all := by
        cases w <;> simp [TimeWord.all]
      exact timeTexts w.text (List.mem_append_left _ (List.mem_map_of_mem hw))
  | counted n unit =>
      have hunit : unit ∈ TimeUnit.all := by
        cases unit <;> simp [TimeUnit.all]
      obtain ⟨hascii, htime⟩ :=
        timeTexts unit.text (List.mem_append_right _ (List.mem_map_of_mem hunit))
      rw [Elapsed.text, isAscii_append, isAscii_digits, hascii, lower_append, lower_digits]
      refine ⟨rfl, ?_⟩
      have hcolon := contains_digits (c := 58) rfl (naturalDigits n)
      have hh := contains_digits (c := 104) rfl (naturalDigits n)
      have hy := contains_digits (c := 121) rfl (naturalDigits n)
      rw [isTimeText, List.contains_append, List.contains_append, List.contains_append, hcolon,
        hh, hy]
      exact htime

/-! ## The column of a running container -/

/-- What comes before the brackets, in lower case. -/
def runningText (elapsed : Elapsed) : JsString :=
  js "up" ++ 32 :: asciiCase.toLowerCase elapsed.text

/-- The texts `healthFromStatus` looks for, and what stands in front of the time. -/
theorem columnTexts :
    (∀ health ∈ Health.all, isAscii (healthSuffix health) = true ∧
      asciiCase.toLowerCase (healthSuffix health) = healthSuffix health ∧
      (58 ∈ healthSuffix health → includes (healthSuffix health) (js "health: starting") = true) ∧
      (if includes (healthSuffix health) (js "unhealthy") then some (js "unhealthy")
        else if includes (healthSuffix health) (js "health: starting") then some (js "starting")
        else if includes (healthSuffix health) (js "healthy") then some (js "healthy")
        else none) = health.map Health.text) ∧
    (32 ∉ js "healthy" ∧ 104 ∈ js "healthy" ∧ 121 ∈ js "healthy" ∧
      ¬ js "healthy" <:+: js "up") ∧
    (32 ∉ js "unhealthy" ∧ js "healthy" <:+: js "unhealthy") ∧
    (58 ∈ js "health: starting" ∧ js "health: starting" <:+: js "(health: starting)") ∧
    (js "Up " ≠ [] ∧ isAscii (js "Up ") = true ∧
      asciiCase.toLowerCase (js "Up ") = js "up" ++ [32] ∧ 58 ∉ js "up") := by
  decide +kernel

section Running

variable (elapsed : Elapsed) (health : Option Health)

theorem healthy_missing : ¬ js "healthy" <:+: runningText elapsed := by
  obtain ⟨hword, hh, hy, hup⟩ := columnTexts.2.1
  intro h
  rcases (infix_append_sep hword _ _).mp h with hfront | htime
  · exact hup hfront
  · have htext := (elapsedText elapsed).2
    rw [isTimeText, List.contains_iff_mem.mpr (htime.subset hh),
      List.contains_iff_mem.mpr (htime.subset hy)] at htext
    simp at htext

theorem unhealthy_missing : ¬ js "unhealthy" <:+: runningText elapsed := by
  intro h
  exact healthy_missing elapsed (columnTexts.2.2.1.2.trans h)

theorem colon_not_mem_running : 58 ∉ runningText elapsed := by
  obtain ⟨-, -, -, hup⟩ := columnTexts.2.2.2.2
  intro h
  rcases List.mem_append.mp h with hfront | htime
  · exact hup hfront
  · rcases List.mem_cons.mp htime with hblank | hmem
    · exact absurd hblank (by decide)
    · have htext := (elapsedText elapsed).2
      rw [isTimeText, List.contains_iff_mem.mpr hmem] at htext
      simp at htext

/-- A word is in the column when it is in the brackets. -/
theorem includes_word {part : JsString} (hword : 32 ∉ part)
    (hno : ¬ part <:+: runningText elapsed) :
    includes (runningText elapsed ++ healthSuffix health) part =
      includes (healthSuffix health) part := by
  have hnil : ¬ part <:+: [] := fun h => hno (h.trans List.nil_infix)
  have hbrackets : ∀ rest : JsString, includes (runningText elapsed ++ 32 :: rest) part =
      includes (32 :: rest) part := by
    intro rest
    have hside := infix_append_sep hword [] rest
    apply decide_eq_decide.mpr
    rw [infix_append_sep hword]
    rw [List.nil_append] at hside
    rw [hside]
    exact or_congr (iff_of_false hno hnil) Iff.rfl
  rcases health with _ | _ | _ | _
  · rw [healthSuffix, List.append_nil]
    exact decide_eq_decide.mpr (iff_of_false hno hnil)
  · exact hbrackets _
  · exact hbrackets _
  · exact hbrackets _

/-- So is what has a colon in it. -/
theorem includes_starting :
    includes (runningText elapsed ++ healthSuffix health) (js "health: starting") =
      includes (healthSuffix health) (js "health: starting") := by
  obtain ⟨hpart, -⟩ := columnTexts.2.2.2.1
  obtain ⟨-, -, hfound, -⟩ := columnTexts.1 health (Health.mem_all health)
  by_cases hcolon : 58 ∈ healthSuffix health
  · have hsuffix := hfound hcolon
    rw [hsuffix]
    exact decide_eq_true (List.infix_append_of_infix_right (of_decide_eq_true hsuffix))
  · apply decide_eq_decide.mpr
    apply iff_of_false
    · intro h
      rcases List.mem_append.mp (h.subset hpart) with hfront | hsuffix
      · exact colon_not_mem_running elapsed hfront
      · exact hcolon hsuffix
    · intro h
      exact hcolon (h.subset hpart)

end Running

/-! ## The health that is found -/

variable {casing : CaseMapping}

theorem lower_running (hcasing : LowersAscii casing) (elapsed : Elapsed)
    (health : Option Health) :
    casing.toLowerCase (js "Up " ++ elapsed.text ++ healthSuffix health) =
      runningText elapsed ++ healthSuffix health := by
  obtain ⟨-, hup, hlower, -⟩ := columnTexts.2.2.2.2
  obtain ⟨hsuffix, hkept, -⟩ := columnTexts.1 health (Health.mem_all health)
  have htext : isAscii (js "Up " ++ elapsed.text ++ healthSuffix health) = true := by
    rw [isAscii_append, isAscii_append, hup, (elapsedText elapsed).1, hsuffix]
    rfl
  rw [hcasing _ htext, lower_append, lower_append, hkept, hlower, List.append_assoc (js "up")]
  rfl

theorem healthFromStatus_of_lower {status lower : JsString} (hstatus : status ≠ [])
    (hlower : casing.toLowerCase status = lower) :
    healthFromStatus casing (.str status) = .ok
      (if includes lower (js "unhealthy") then some (js "unhealthy")
      else if includes lower (js "health: starting") then some (js "starting")
      else if includes lower (js "healthy") then some (js "healthy")
      else none) := by
  obtain ⟨-, hpart⟩ := columnTexts.2.2.2.1
  have htruthy : (JsValue.str status).truthy = true := by
    simpa [JsValue.truthy] using hstatus
  have hread : lowerText casing (.str status) = .ok lower := congrArg Except.ok hlower
  have honce : (includes lower (js "health: starting") ||
      includes lower (js "(health: starting)")) = includes lower (js "health: starting") := by
    rw [Bool.or_eq_left_iff_imp]
    intro h
    exact decide_eq_true (hpart.trans (of_decide_eq_true h))
  rw [healthFromStatus, htruthy, hread]
  simp only [bind, Except.bind, Bool.not_true, Bool.false_eq_true, if_false, honce]
  split_ifs <;> rfl

/-- `healthFromStatus` finds the health docker puts behind the time. -/
theorem healthFromStatus_running (hcasing : LowersAscii casing) (elapsed : Elapsed)
    (health : Option Health) :
    healthFromStatus casing (.str (js "Up " ++ elapsed.text ++ healthSuffix health)) =
      .ok (health.map Health.text) := by
  obtain ⟨-, -, -, hfound⟩ := columnTexts.1 health (Health.mem_all health)
  have hnonempty : js "Up " ++ elapsed.text ++ healthSuffix health ≠ [] := by
    rw [List.append_assoc]
    exact List.append_ne_nil_of_left_ne_nil columnTexts.2.2.2.2.1 _
  rw [healthFromStatus_of_lower hnonempty (lower_running hcasing elapsed health),
    includes_word elapsed health columnTexts.2.2.1.1 (unhealthy_missing elapsed),
    includes_word elapsed health columnTexts.2.1.1 (healthy_missing elapsed),
    includes_starting elapsed health, hfound]

end OpticsAgent.Docker
