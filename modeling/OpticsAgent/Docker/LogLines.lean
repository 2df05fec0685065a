import Mathlib
import OpticsAgent.Docker.Chunking

/-!
The lines of a container's log, as docker prints them: docker's timestamp, with
the container's name in front where compose prints, and the text. The agent reads
the timestamp back, to the millisecond.
-/

namespace OpticsAgent.Docker

open OpticsAgent.Ecma OpticsAgent.Node OpticsAgent.Lib

/-- `RFC3339NanoFixed`: docker's timestamps have nine digits of a second. -/
def stampText (time : ℕ) : JsString :=
  (toISOString (time / 1000000 : ℕ)).dropLast ++ padDigits 6 (time % 1000000) ++ [90]

/-- The container name compose puts in front of a line, padded to a column. -/
structure ComposeLabel where
  name : JsString
  padding : ℕ
  nonempty : name ≠ []
  plain : ∀ c ∈ name, isNameUnit c = true

def labelText : Option ComposeLabel → JsString
  | none => []
  | some label => label.name ++ List.replicate (label.padding + 1) 32 ++ [124, 32]

/-- A line of a container's log; docker holds times in 64 bits. -/
structure LogLine where
  /-- In nanoseconds. -/
  time : ℕ
  stderr : Bool
  text : List Byte
  inRange : time < 2 ^ 63
  oneLine : ∀ b ∈ text, isNewline b = false

namespace LogLine

def printed (label : Option ComposeLabel) (line : LogLine) : List Byte :=
  asciiBytes (labelText label ++ stampText line.time ++ [32]) ++ line.text

def isBlank (line : LogLine) : Bool := cleanLine (utf8Text line.text) = []

/-- What the agent makes of the line. -/
def reading (stack : ℕ) (containerName : JsString) (label : Option ComposeLabel) (line : LogLine) :
    Except RangeError (Option DockerLogEntry) :=
  runtimeLogEntry stack (utf8Text (line.printed label)) (some containerName) line.stderr

def entry (stack : ℕ) (containerName : JsString) (label : Option ComposeLabel) (line : LogLine) :
    Option DockerLogEntry :=
  lineEntry stack containerName line.stderr (utf8Text (line.printed label))

end LogLine

/-- Neither white space nor an escape, a bar or a line end. -/
def isStampUnit (c : CodeUnit) : Bool := 43 ≤ c.val && c.val ≤ 90

theorem padDigits_units (width n : ℕ) : ∀ c ∈ padDigits width n, isStampUnit c = true := by
  intro c hc
  rcases List.mem_append.mp hc with hzero | hdigit
  · rw [List.eq_of_mem_replicate hzero]
    decide
  · have hunit : ∀ d : Digit, isStampUnit (digitUnit d) = true := by decide
    obtain ⟨d, -, rfl⟩ := List.mem_map.mp hdigit
    exact hunit d

theorem yearText_units (year : ℤ) : ∀ c ∈ yearText year, isStampUnit c = true := by
  unfold yearText
  split_ifs
  · exact padDigits_units _ _
  · exact List.forall_mem_cons.mpr ⟨by decide, padDigits_units _ _⟩
  · exact List.forall_mem_cons.mpr ⟨by decide, padDigits_units _ _⟩

theorem toISOString_units (time : ℤ) : ∀ c ∈ toISOString time, isStampUnit c = true := by
  unfold toISOString
  dsimp only
  simp only [List.append_assoc, List.forall_mem_append, List.forall_mem_cons, List.cons_append]
  exact ⟨yearText_units _, by decide, padDigits_units _ _, by decide, padDigits_units _ _,
    by decide, padDigits_units _ _, by decide, padDigits_units _ _, by decide,
    padDigits_units _ _, by decide, padDigits_units _ _, by decide, by simp⟩

theorem stampText_units (time : ℕ) : ∀ c ∈ stampText time, isStampUnit c = true := by
  refine List.forall_mem_append.mpr ⟨List.forall_mem_append.mpr ⟨fun c hc => ?_, ?_⟩, ?_⟩
  · exact toISOString_units _ c (List.mem_of_mem_dropLast hc)
  · exact padDigits_units _ _
  · exact List.forall_mem_singleton.mpr (by decide)

theorem labelText_units (label : Option ComposeLabel) : ∀ c ∈ labelText label,
    isNameUnit c = true ∨ c = 32 ∨ c = 124 := by
  intro c hc
  cases label with
  | none => cases hc
  | some label =>
      simp only [labelText, List.append_assoc, List.mem_append, List.mem_cons] at hc
      rcases hc with h | h | rfl | rfl | h
      · exact Or.inl (label.plain c h)
      · exact Or.inr (Or.inl (List.eq_of_mem_replicate h))
      · exact Or.inr (Or.inr rfl)
      · exact Or.inr (Or.inl rfl)
      · cases h

theorem frontText_ascii (label : Option ComposeLabel) (time : ℕ) :
    ∀ c ∈ labelText label ++ stampText time ++ [32], c.val < 0x80 ∧ c ≠ 10 := by
  have hname : ∀ c, isNameUnit c = true → c.val < 0x80 ∧ c ≠ 10 := by
    intro c hc
    simp only [isNameUnit, Bool.or_eq_true, Bool.and_eq_true, decide_eq_true_eq, beq_iff_eq,
      Fin.ext_iff] at hc
    simp only [ne_eq, Fin.ext_iff]
    omega
  have hstamp : ∀ c, isStampUnit c = true → c.val < 0x80 ∧ c ≠ 10 := by
    intro c hc
    simp only [isStampUnit, Bool.and_eq_true, decide_eq_true_eq] at hc
    simp only [ne_eq, Fin.ext_iff]
    omega
  refine List.forall_mem_append.mpr ⟨List.forall_mem_append.mpr ⟨fun c hc => ?_, fun c hc => ?_⟩,
    List.forall_mem_singleton.mpr (by decide)⟩
  · rcases labelText_units label c hc with h | rfl | rfl
    · exact hname c h
    · decide
    · decide
  · exact hstamp c (stampText_units time c hc)

namespace LogLine

/-- The text the agent decodes for a line. -/
theorem utf8Text_printed (label : Option ComposeLabel) (line : LogLine) :
    utf8Text (line.printed label) =
      labelText label ++ stampText line.time ++ 32 :: utf8Text line.text := by
  rw [printed, utf8Text_asciiBytes fun c hc => (frontText_ascii label line.time c hc).1]
  simp

theorem printed_clean (label : Option ComposeLabel) (line : LogLine) :
    ∀ c ∈ utf8Text (line.printed label), c ≠ 10 := by
  rw [utf8Text_printed, ← List.singleton_append, ← List.append_assoc]
  refine List.forall_mem_append.mpr ⟨fun c hc => (frontText_ascii label _ c hc).2, ?_⟩
  rintro c hc rfl
  obtain ⟨b, hb, heq⟩ := mem_utf8Text hc (by decide)
  have hbyte := line.oneLine b hb
  simp only [isNewline, beq_eq_false_iff_ne, ne_eq, Fin.ext_iff] at hbyte
  exact hbyte heq

theorem trim_printed_ne_nil (label : Option ComposeLabel) (line : LogLine) :
    trim (utf8Text (line.printed label)) ≠ [] := by
  intro hnil
  have hmem : (90 : CodeUnit) ∈ utf8Text (line.printed label) := by
    rw [utf8Text_printed]
    simp [stampText]
  exact absurd (trim_eq_nil_iff.mp hnil 90 hmem) (by decide)

end LogLine

/-! ## Docker's timestamps -/

/-- The elements of a timestamp, with the fraction of a second behind them. -/
def stampBase (year month day hour minute second : ℕ) : JsString :=
  padDigits 4 year ++ 45 :: padDigits 2 month ++ 45 :: padDigits 2 day ++ 84 :: padDigits 2 hour ++
    58 :: padDigits 2 minute ++ 58 :: padDigits 2 second

theorem isDigit_digitUnit (d : Digit) : isDigit (digitUnit d) = true := by
  revert d
  decide

theorem takeShape_digits {shape : JsString} {width n : ℕ} (hwidth : 0 < width)
    (h : n < 10 ^ width) (rest : JsString) :
    takeShape (List.replicate width 100 ++ shape) (padDigits width n ++ rest) =
      (takeShape shape rest).map fun r => (padDigits width n ++ r.1, r.2) := by
  obtain ⟨digits, hpad, hlength, -⟩ := padDigits_eq hwidth h
  rw [hpad, ← hlength]
  clear hpad hlength
  induction digits with
  | nil => simp
  | cons d digits ih =>
      rw [List.length_cons, List.replicate_succ, List.cons_append, List.map_cons, List.cons_append,
        takeShape, if_pos rfl, if_pos (isDigit_digitUnit d), ih, Option.map_map]
      rfl

theorem takeShape_mark {shape : JsString} {mark : CodeUnit} (h : mark ≠ 100) (rest : JsString) :
    takeShape (mark :: shape) (mark :: rest) =
      (takeShape shape rest).map fun r => (mark :: r.1, r.2) := by
  rw [takeShape, if_neg h, if_pos (beq_self_eq_true mark)]

theorem takeShape_stampBase {year month day hour minute second : ℕ} (hyear : year < 10 ^ 4)
    (hmonth : month < 10 ^ 2) (hday : day < 10 ^ 2) (hhour : hour < 10 ^ 2)
    (hminute : minute < 10 ^ 2) (hsecond : second < 10 ^ 2) (rest : JsString) :
    takeShape (js "dddd-dd-ddTdd:dd:dd") (stampBase year month day hour minute second ++ rest) =
      some (stampBase year month day hour minute second, rest) := by
  have hshape : js "dddd-dd-ddTdd:dd:dd" = List.replicate 4 100 ++ 45 :: (List.replicate 2 100 ++
      45 :: (List.replicate 2 100 ++ 84 :: (List.replicate 2 100 ++ 58 :: (List.replicate 2 100 ++
        58 :: (List.replicate 2 100 ++ []))))) := by
    decide +kernel
  rw [hshape, stampBase]
  simp only [List.append_assoc, List.cons_append]
  rw [takeShape_digits (by norm_num) hyear, takeShape_mark (by decide),
    takeShape_digits (by norm_num) hmonth, takeShape_mark (by decide),
    takeShape_digits (by norm_num) hday, takeShape_mark (by decide),
    takeShape_digits (by norm_num) hhour, takeShape_mark (by decide),
    takeShape_digits (by norm_num) hminute, takeShape_mark (by decide),
    takeShape_digits (by norm_num) hsecond, takeShape]
  simp

theorem takeFraction_digits {digits : List Digit} (hdigits : digits ≠ []) {c : CodeUnit}
    (hc : isDigit c = false) (rest : JsString) :
    takeFraction (46 :: (digits.map digitUnit ++ c :: rest)) =
      (46 :: digits.map digitUnit, c :: rest) := by
  have hall : ∀ u ∈ digits.map digitUnit, isDigit u = true := by
    intro u hu
    obtain ⟨d, -, rfl⟩ := List.mem_map.mp hu
    exact isDigit_digitUnit d
  have htake : (digits.map digitUnit ++ c :: rest).takeWhile isDigit = digits.map digitUnit := by
    rw [List.takeWhile_append_of_pos hall, List.takeWhile_cons_of_neg (by simp [hc])]
    simp
  have hdrop : (digits.map digitUnit ++ c :: rest).dropWhile isDigit = c :: rest := by
    rw [List.dropWhile_append_of_pos hall, List.dropWhile_cons_of_neg (by simp [hc])]
  rw [takeFraction, htake, hdrop, if_neg (by simpa using hdigits)]

/-- Docker's time lies in years of four digits. -/
theorem stampText_eq {time : ℕ} (h : time < 2 ^ 63) :
    ∃ year month day hour minute second ms, year < 10 ^ 4 ∧ month < 10 ^ 2 ∧ day < 10 ^ 2 ∧
      hour < 10 ^ 2 ∧ minute < 10 ^ 2 ∧ second < 10 ^ 2 ∧ ms < 10 ^ 3 ∧
      toISOString (time / 1000000 : ℕ) =
        stampBase year month day hour minute second ++ 46 :: padDigits 3 ms ++ [90] := by
  set total : ℤ := ((time / 1000000 : ℕ) : ℤ) with htotal
  have hday : 0 ≤ total / 86400000 ∧ total / 86400000 < 106752 := by omega
  obtain ⟨-, hmonth, hmonth', hday1, hday31⟩ := civilFromDays_spec (total / 86400000)
  have hyear : 0 ≤ (civilFromDays (total / 86400000)).1 ∧
      (civilFromDays (total / 86400000)).1 < 10000 := by
    have hlt : ((total / 86400000 + 719468) % 146097).toNat < 146097 := by omega
    obtain ⟨hera, -, -⟩ := eraYear_bounds hlt
    unfold eraYear at hera
    simp only [civilFromDays]
    split_ifs <;> omega
  have hms : (total % 86400000).toNat < 86400000 := by omega
  refine ⟨(civilFromDays (total / 86400000)).1.toNat, (civilFromDays (total / 86400000)).2.1,
    (civilFromDays (total / 86400000)).2.2, (total % 86400000).toNat / 3600000,
    (total % 86400000).toNat / 60000 % 60, (total % 86400000).toNat / 1000 % 60,
    (total % 86400000).toNat % 1000, by omega, by omega, by omega, by omega, by omega, by omega,
    by omega, ?_⟩
  have htext : yearText (civilFromDays (total / 86400000)).1 =
      padDigits 4 (civilFromDays (total / 86400000)).1.toNat := if_pos ⟨hyear.1, by omega⟩
  unfold toISOString stampBase
  dsimp only
  rw [htext]

/-- A timestamp of docker's is read back, to the millisecond. -/
theorem takeStamp_stampText {time : ℕ} (h : time < 2 ^ 63) (rest : JsString) :
    ∃ stamp, takeStamp (stampText time ++ rest) = some (stamp, rest) ∧
      stamp.time = some ((time / 1000000 : ℕ) : ℤ) := by
  obtain ⟨year, month, day, hour, minute, second, ms, hyear, hmonth, hday, hhour, hminute, hsecond,
    hms, heq⟩ := stampText_eq h
  obtain ⟨digits, hpad, hlength, -⟩ := padDigits_eq (show 0 < 3 by norm_num) hms
  obtain ⟨more, hmore, hlength', -⟩ :=
    padDigits_eq (show 0 < 6 by norm_num) (show time % 1000000 < 10 ^ 6 by omega)
  have htext : stampText time ++ rest = stampBase year month day hour minute second ++
      46 :: ((digits ++ more).map digitUnit ++ 90 :: rest) := by
    rw [stampText, heq, List.dropLast_concat, hpad, hmore]
    simp
  refine ⟨⟨stampBase year month day hour minute second, 46 :: (digits ++ more).map digitUnit, [90]⟩,
    ?_, ?_⟩
  · rw [htext, takeStamp, takeShape_stampBase hyear hmonth hday hhour hminute hsecond]
    have hdigits : digits ++ more ≠ [] := by
      rintro hnil
      simp [List.append_eq_nil_iff.mp hnil] at hlength
    have hfraction := takeFraction_digits hdigits (show isDigit 90 = false by decide) rest
    simp only [Option.bind_eq_bind, Option.bind_some, hfraction, takeZone]
    rfl
  · have hfront : (46 :: (digits ++ more).map digitUnit).take 4 = 46 :: padDigits 3 ms := by
      rw [List.take_succ_cons, List.map_append, hpad,
        List.take_left' (by rw [List.length_map, hlength])]
    have hrange : inTimeRange ((time / 1000000 : ℕ) : ℤ) = true := by
      simp only [inTimeRange, Bool.and_eq_true, decide_eq_true_eq]
      omega
    have hround := dateParse_toISOString hrange
    rw [Stamp.time, Stamp.milliseconds, if_neg (by simp), hfront, ← hround, heq]
    simp [hpad, hlength]

/-! ## Lines without a message -/

theorem takePrefixed_of_noSpace {s : JsString} (h : ∀ c ∈ s, isTrimmed c = false) :
    takePrefixed s = none := by
  induction s with
  | nil => rfl
  | cons c s ih =>
      obtain ⟨hc, hs⟩ := List.forall_mem_cons.mp h
      have hbar : takeBar (c :: s) = none := by
        rw [takeBar, List.takeWhile_cons_of_neg (by simp [hc]), if_pos rfl]
      rw [takePrefixed, hbar, ih hs]
      simp [extendPrefix]

theorem takeBar_spaces {spaces s : JsString} (hspaces : spaces ≠ [])
    (h : ∀ c ∈ spaces, isTrimmed c = true) (hs : ∀ c, s.head? = some c → isTrimmed c = false) :
    takeBar (spaces ++ 124 :: 32 :: s) = some s := by
  have hbar : isTrimmed 124 = false := by decide
  have hspace : isTrimmed 32 = true := by decide
  have htake : (spaces ++ 124 :: 32 :: s).takeWhile isTrimmed ≠ [] := by
    rw [List.takeWhile_append_of_pos h]
    simp [hspaces]
  have hdrop : (spaces ++ 124 :: 32 :: s).dropWhile isTrimmed = 124 :: 32 :: s := by
    rw [List.dropWhile_append_of_pos h, List.dropWhile_cons_of_neg (by simp [hbar])]
  rw [takeBar, if_neg htake, hdrop]
  exact congrArg some ((List.dropWhile_cons_of_pos hspace).trans (dropWhile_of_head hs))

theorem isNameUnit_spec {c : CodeUnit} (h : isNameUnit c = true) :
    isTrimmed c = false ∧ isLineTerminator c = false ∧ c ≠ 27 := by
  have hvalue : (65 ≤ c.val ∧ c.val ≤ 90) ∨ (97 ≤ c.val ∧ c.val ≤ 122) ∨
      (48 ≤ c.val ∧ c.val ≤ 57) ∨ c.val = 95 ∨ c.val = 46 ∨ c.val = 45 := by
    simp only [isNameUnit, Bool.or_eq_true, Bool.and_eq_true, decide_eq_true_eq, beq_iff_eq,
      Fin.ext_iff] at h
    omega
  refine ⟨?_, ?_, ?_⟩
  · simp only [isTrimmed, Bool.or_eq_false_iff, Bool.and_eq_false_iff, decide_eq_false_iff_not,
      beq_eq_false_iff_ne, ne_eq]
    omega
  · simp only [isLineTerminator, Bool.or_eq_false_iff, beq_eq_false_iff_ne, ne_eq, Fin.ext_iff]
    omega
  · rintro rfl
    simp at hvalue

/-- The label of compose is the prefix of its line. -/
theorem takePrefixed_label {name spaces s : JsString} {found : Stamp × JsString}
    (hname : ∀ c ∈ name, isNameUnit c = true) (hspaces : spaces ≠ [])
    (h : ∀ c ∈ spaces, isTrimmed c = true) (hs : ∀ c, s.head? = some c → isTrimmed c = false)
    (hfound : takeMessage s = some found) :
    takePrefixed (name ++ (spaces ++ 124 :: 32 :: s)) = some (name, found) := by
  induction name with
  | nil =>
      have hbar := takeBar_spaces hspaces h hs
      obtain ⟨c, rest, rfl⟩ := List.exists_cons_of_ne_nil hspaces
      rw [List.cons_append] at hbar
      rw [List.nil_append, List.cons_append, takePrefixed, hbar, Option.bind_some, hfound,
        extendPrefix]
  | cons c name ih =>
      obtain ⟨hc, hname⟩ := List.forall_mem_cons.mp hname
      obtain ⟨hspace, hterminator, -⟩ := isNameUnit_spec hc
      have hbar : takeBar (c :: (name ++ (spaces ++ 124 :: 32 :: s))) = none := by
        rw [takeBar, List.takeWhile_cons_of_neg (by simp [hspace]), if_pos rfl]
      rw [List.cons_append, takePrefixed, hbar, Option.bind_none, ih hname]
      simp [extendPrefix, hterminator]

theorem stripFrom_of_plain {s : JsString} (h : ∀ c ∈ s, c ≠ 27) (t : JsString) :
    stripFrom 0 (s ++ t) = s ++ stripFrom 0 t := by
  induction s with
  | nil => rfl
  | cons c s ih =>
      obtain ⟨hc, hs⟩ := List.forall_mem_cons.mp h
      rw [List.cons_append, stripFrom, escapeLength_of_ne hc, ih hs]
      rfl

theorem isStampUnit_spec {c : CodeUnit} (h : isStampUnit c = true) :
    isTrimmed c = false ∧ c ≠ 27 := by
  simp only [isStampUnit, Bool.and_eq_true, decide_eq_true_eq] at h
  refine ⟨?_, ?_⟩
  · simp only [isTrimmed, Bool.or_eq_false_iff, Bool.and_eq_false_iff, decide_eq_false_iff_not,
      beq_eq_false_iff_ne, ne_eq]
    omega
  · rintro rfl
    simp at h

theorem stampText_head {time : ℕ} {c : CodeUnit} (h : (stampText time).head? = some c) :
    isTrimmed c = false := by
  exact (isStampUnit_spec (stampText_units time c (List.mem_of_mem_head? h))).1

theorem cleanLine_front (label : Option ComposeLabel) (time : ℕ) :
    cleanLine (labelText label ++ stampText time) = labelText label ++ stampText time := by
  have hunits : ∀ c ∈ labelText label ++ stampText time, c ≠ 27 := by
    refine List.forall_mem_append.mpr ⟨fun c hc => ?_, fun c hc => ?_⟩
    · rcases labelText_units label c hc with h | rfl | rfl
      · exact (isNameUnit_spec h).2.2
      · decide
      · decide
    · exact (isStampUnit_spec (stampText_units time c hc)).2
  have hfirst : ∀ c, (labelText label ++ stampText time).head? = some c → isTrimmed c = false := by
    intro c hc
    cases label with
    | none =>
        rw [labelText, List.nil_append] at hc
        exact stampText_head hc
    | some label =>
        rw [labelText, List.append_assoc, List.append_assoc,
          List.head?_append_of_ne_nil _ label.nonempty] at hc
        exact (isNameUnit_spec (label.plain c (List.mem_of_mem_head? hc))).1
  have hlast : ∀ c, (labelText label ++ stampText time).getLast? = some c →
      isTrimmed c = false := by
    intro c hc
    rw [stampText, ← List.append_assoc, List.getLast?_concat] at hc
    obtain rfl := Option.some.inj hc
    decide
  have hstrip := stripFrom_of_plain hunits []
  rw [List.append_nil, stripFrom, List.append_nil] at hstrip
  rw [cleanLine, stripAnsi, hstrip]
  exact trim_of_ends hfirst hlast

/-- A line of which docker's timestamp is all there is has no message. -/
theorem matchTimestamp_front (label : Option ComposeLabel) {time : ℕ} (h : time < 2 ^ 63) :
    ∃ front stamp, matchTimestamp (labelText label ++ stampText time) =
      some (front, stamp, []) ∧ stamp.time = some ((time / 1000000 : ℕ) : ℤ) := by
  obtain ⟨stamp, hstamp, htime⟩ := takeStamp_stampText h []
  have hmessage : takeMessage (stampText time) = some (stamp, []) := by
    rw [List.append_nil] at hstamp
    simp [takeMessage, hstamp]
  cases label with
  | none =>
      have hnone : takePrefixed (stampText time) = none :=
        takePrefixed_of_noSpace fun c hc => (isStampUnit_spec (stampText_units time c hc)).1
      refine ⟨none, stamp, ?_, htime⟩
      rw [labelText, List.nil_append, matchTimestamp, hnone, hmessage]
      rfl
  | some label =>
      have hspaces : ∀ c ∈ List.replicate (label.padding + 1) (32 : CodeUnit),
          isTrimmed c = true := by
        intro c hc
        rw [List.eq_of_mem_replicate hc]
        decide
      have hfound := takePrefixed_label label.plain (by simp) hspaces
        (fun c hc => stampText_head hc) hmessage
      refine ⟨some label.name, stamp, ?_, htime⟩
      rw [labelText, List.append_assoc, List.append_assoc, matchTimestamp]
      simp only [List.cons_append, List.nil_append, hfound]

theorem LogLine.entry_of_isBlank (stack : ℕ) (containerName : JsString)
    (label : Option ComposeLabel) {line : LogLine} (h : line.isBlank = true) :
    line.entry stack containerName label = none := by
  have hclean : cleanLine (utf8Text (line.printed label)) =
      labelText label ++ stampText line.time := by
    have htext : cleanLine (32 :: utf8Text line.text) = [] := by
      rw [← List.singleton_append, cleanLine_append_left (by decide)]
      exact of_decide_eq_true h
    rw [line.utf8Text_printed, cleanLine_append_right htext, cleanLine_front]
  obtain ⟨front, stamp, hmatch, htime⟩ := matchTimestamp_front label line.inRange
  have hparse := parseDockerLogLine_of_match stack (hclean ▸ hmatch) (some containerName)
  rw [LogLine.entry, lineEntry, runtimeLogEntry, hparse]
  simp only [stampedEntry, htime, toISOString?]
  rfl

end OpticsAgent.Docker
