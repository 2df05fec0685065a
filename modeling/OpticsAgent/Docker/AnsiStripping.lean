import Mathlib
import OpticsAgent.Docker.LogSafety
import OpticsAgent.Ecma.Split

/-!
What `stripAnsi` leaves. Escape sequences are removed from left to right in one
pass, so what stood around a removed one can close up to a new one. That happens
exactly where an escape sequence of the text is interrupted by complete ones.
-/

namespace OpticsAgent.Docker

open OpticsAgent.Ecma OpticsAgent.Node OpticsAgent.Lib

/-! ## Escape sequences -/

/-- `[@-Z\\-_]|\[[0-?]*[\x20-\x2F]*[@-~]`. -/
inductive EscapeBody : JsString → Prop
  | single (c : CodeUnit) : isSingleFinal c = true → EscapeBody [c]
  | control (parameters intermediates : JsString) (final : CodeUnit) :
      (∀ c ∈ parameters, isParameter c = true) → (∀ c ∈ intermediates, isIntermediate c = true) →
      isFinal final = true → EscapeBody (91 :: (parameters ++ (intermediates ++ [final])))

/-- A match of the pattern `stripAnsi` replaces. -/
def IsEscape (s : JsString) : Prop := ∃ body, s = 27 :: body ∧ EscapeBody body

theorem EscapeBody.ne_nil {body : JsString} (h : EscapeBody body) : body ≠ [] := by
  cases h <;> simp

/-- ESC is in none of the classes. -/
theorem EscapeBody.no_escape {body : JsString} (h : EscapeBody body) : 27 ∉ body := by
  intro hmem
  cases h with
  | single c hc =>
      obtain rfl := List.mem_singleton.mp hmem
      exact absurd hc (by decide)
  | control parameters intermediates final hparameters hintermediates hfinal =>
      rcases List.mem_cons.mp hmem with hbracket | hmem
      · exact absurd hbracket (by decide)
      rcases List.mem_append.mp hmem with hmem | hmem
      · exact absurd (hparameters 27 hmem) (by decide)
      rcases List.mem_append.mp hmem with hmem | hmem
      · exact absurd (hintermediates 27 hmem) (by decide)
      · obtain rfl := List.mem_singleton.mp hmem
        exact absurd hfinal (by decide)

theorem classes_apart {c : CodeUnit} :
    (isIntermediate c = true → isParameter c = false) ∧
      (isFinal c = true → isParameter c = false ∧ isIntermediate c = false) ∧
      (isSingleFinal c = true → c ≠ 91) := by
  simp only [isIntermediate, isParameter, isFinal, isSingleFinal, Fin.ext_iff, Bool.or_eq_true,
    Bool.and_eq_true, decide_eq_true_eq, Bool.and_eq_false_iff, decide_eq_false_iff_not, ne_eq]
  refine ⟨?_, ?_, ?_⟩
  · omega
  · omega
  · intro h
    change ¬ c.val = 91
    omega

theorem controlLength_body {parameters intermediates : JsString} {final : CodeUnit}
    (hparameters : ∀ c ∈ parameters, isParameter c = true)
    (hintermediates : ∀ c ∈ intermediates, isIntermediate c = true) (hfinal : isFinal final = true)
    (rest : JsString) :
    controlLength (parameters ++ (intermediates ++ final :: rest)) =
      (parameters ++ (intermediates ++ [final])).length := by
  obtain ⟨hparameter, hintermediate⟩ := classes_apart.2.1 hfinal
  have htail : (intermediates ++ final :: rest).dropWhile isParameter =
      intermediates ++ final :: rest := by
    apply dropWhile_of_head
    intro c hc
    cases intermediates with
    | nil =>
        obtain rfl := Option.some.inj hc
        exact hparameter
    | cons first more =>
        obtain rfl := Option.some.inj hc
        exact classes_apart.1 (hintermediates first List.mem_cons_self)
  have hclose : (final :: rest).dropWhile isIntermediate = final :: rest :=
    List.dropWhile_cons_of_neg (by simp [hintermediate])
  unfold controlLength
  dsimp only
  rw [List.dropWhile_append_of_pos hparameters, htail,
    List.dropWhile_append_of_pos hintermediates, hclose]
  simp only [hfinal, if_true, List.length_append, List.length_cons, List.length_nil]
  omega

/-- The sequence at the front of a text is measured, whatever follows it. -/
theorem escapeLength_body {body : JsString} (h : EscapeBody body) (rest : JsString) :
    escapeLength (27 :: body ++ rest) = body.length + 1 := by
  cases h with
  | single c hc => simp [escapeLength, hc]
  | control parameters intermediates final hparameters hintermediates hfinal =>
      have hlength := controlLength_body hparameters hintermediates hfinal rest
      have hbracket : isSingleFinal 91 = false := by decide
      have htext : 27 :: 91 :: (parameters ++ (intermediates ++ [final])) ++ rest =
          27 :: 91 :: (parameters ++ (intermediates ++ final :: rest)) := by simp
      rw [htext, escapeLength, hlength]
      simp [hbracket]

theorem exists_body_of_controlLength {s : JsString} (h : controlLength s ≠ 0) :
    ∃ parameters intermediates final rest,
      s = parameters ++ (intermediates ++ final :: rest) ∧
      (∀ c ∈ parameters, isParameter c = true) ∧ (∀ c ∈ intermediates, isIntermediate c = true) ∧
      isFinal final = true := by
  unfold controlLength at h
  cases hrest : (s.dropWhile isParameter).dropWhile isIntermediate with
  | nil => simp [hrest] at h
  | cons final rest =>
      simp only [hrest] at h
      refine ⟨s.takeWhile isParameter, (s.dropWhile isParameter).takeWhile isIntermediate, final,
        rest, ?_, ?_, ?_, ?_⟩
      · rw [← hrest, List.takeWhile_append_dropWhile, List.takeWhile_append_dropWhile]
      · exact fun c hc => List.mem_takeWhile_imp hc
      · exact fun c hc => List.mem_takeWhile_imp hc
      · by_contra hfinal
        exact h (if_neg hfinal)

theorem escapeLength_ne_zero_iff {s : JsString} :
    escapeLength s ≠ 0 ↔ ∃ escape rest, s = escape ++ rest ∧ IsEscape escape := by
  constructor
  · intro h
    cases s with
    | nil => exact absurd rfl h
    | cons esc s =>
        cases s with
        | nil => exact absurd rfl h
        | cons c rest =>
            simp only [escapeLength] at h
            by_cases hescape : esc = 27
            · subst hescape
              by_cases hsingle : isSingleFinal c = true
              · exact ⟨[27, c], rest, rfl, [c], rfl, .single c hsingle⟩
              by_cases hcontrol : c = 91 ∧ controlLength rest ≠ 0
              · obtain ⟨rfl, hlength⟩ := hcontrol
                obtain ⟨parameters, intermediates, final, after, rfl, hparameters,
                  hintermediates, hfinal⟩ := exists_body_of_controlLength hlength
                exact ⟨27 :: 91 :: (parameters ++ (intermediates ++ [final])), after, by simp, _,
                  rfl, .control _ _ _ hparameters hintermediates hfinal⟩
              · simp [hsingle, hcontrol] at h
            · simp [hescape] at h
  · rintro ⟨_, rest, rfl, body, rfl, hbody⟩
    rw [escapeLength_body hbody]
    exact Nat.succ_ne_zero _

/-! ## One pass -/

/-- No escape sequence stands at the front. -/
def NoEscapeAt (s : JsString) : Prop := ∀ escape rest, s = escape ++ rest → ¬ IsEscape escape

theorem escapeLength_eq_zero {s : JsString} (h : NoEscapeAt s) : escapeLength s = 0 := by
  by_contra hne
  obtain ⟨escape, rest, hs, hescape⟩ := escapeLength_ne_zero_iff.mp hne
  exact h escape rest hs hescape

theorem noEscapeAt_of_ne {c : CodeUnit} (h : c ≠ 27) (s : JsString) : NoEscapeAt (c :: s) := by
  rintro _ rest hs ⟨body, rfl, -⟩
  exact h (List.cons.inj hs).1

theorem stripFrom_eq_drop (skip : ℕ) (s : JsString) :
    stripFrom skip s = stripAnsi (s.drop skip) := by
  induction skip generalizing s with
  | zero => rfl
  | succ skip ih =>
      cases s with
      | nil => rfl
      | cons c rest => exact ih rest

theorem stripAnsi_escape {escape : JsString} (h : IsEscape escape) (rest : JsString) :
    stripAnsi (escape ++ rest) = stripAnsi rest := by
  obtain ⟨body, rfl, hbody⟩ := h
  have hlength := escapeLength_body hbody rest
  rw [List.cons_append] at hlength ⊢
  rw [stripAnsi, stripFrom, hlength]
  exact (stripFrom_eq_drop _ _).trans (by rw [List.drop_left])

theorem stripAnsi_kept {c : CodeUnit} {s : JsString} (h : NoEscapeAt (c :: s)) :
    stripAnsi (c :: s) = c :: stripAnsi s := by
  rw [stripAnsi, stripFrom, escapeLength_eq_zero h]
  rfl

/-- A text is read an escape sequence or a kept unit at a time. -/
theorem strip_ind {P : JsString → Prop} (nil : P [])
    (escape : ∀ escape rest, IsEscape escape → P rest → P (escape ++ rest))
    (kept : ∀ c rest, NoEscapeAt (c :: rest) → P rest → P (c :: rest)) (s : JsString) : P s := by
  induction hlength : s.length using Nat.strong_induction_on generalizing s with
  | _ n ih =>
      cases s with
      | nil => exact nil
      | cons c rest =>
          by_cases hfree : NoEscapeAt (c :: rest)
          · refine kept c rest hfree (ih rest.length ?_ rest rfl)
            rw [← hlength, List.length_cons]
            exact Nat.lt_succ_self _
          · unfold NoEscapeAt at hfree
            push Not at hfree
            obtain ⟨front, back, hs, hescape⟩ := hfree
            obtain ⟨body, rfl, -⟩ := id hescape
            rw [hs]
            refine escape _ back hescape (ih back.length ?_ back rfl)
            rw [← hlength, hs, List.length_append, List.length_cons]
            omega

/-- Without an escape sequence nothing is removed. -/
theorem stripAnsi_of_free {s : JsString}
    (h : ∀ front escape back, s = front ++ escape ++ back → ¬ IsEscape escape) :
    stripAnsi s = s := by
  induction s with
  | nil => rfl
  | cons c s ih =>
      have hhere : NoEscapeAt (c :: s) := fun escape rest hs => h [] escape rest hs
      rw [stripAnsi_kept hhere, ih]
      intro front escape back hs
      exact h (c :: front) escape back (by rw [hs]; rfl)

/-- A body has no ESC, so it ends before the next one. -/
theorem EscapeBody.prefix_front {body back front rest : JsString} (h : EscapeBody body)
    (heq : front ++ 27 :: rest = body ++ back) : body <+: front := by
  rcases List.append_eq_append_iff.mp heq with ⟨between, hbody, hrest⟩ | ⟨between, hfront, -⟩
  · cases between with
    | nil => exact ⟨[], by rw [hbody, List.append_nil, List.append_nil]⟩
    | cons c more =>
        obtain ⟨rfl, -⟩ := List.cons.inj hrest
        exact absurd (hbody ▸ List.mem_append_right _ List.mem_cons_self) h.no_escape
  · exact ⟨between, hfront.symm⟩

/-- Where ESC stands, what is before it is read by itself. -/
theorem stripAnsi_append_escape (front rest : JsString) :
    stripAnsi (front ++ 27 :: rest) = stripAnsi front ++ stripAnsi (27 :: rest) := by
  induction front using strip_ind with
  | nil => rfl
  | escape escape front hescape ih =>
      rw [List.append_assoc, stripAnsi_escape hescape, stripAnsi_escape hescape, ih]
  | kept c front hfree ih =>
      have hlonger : NoEscapeAt (c :: (front ++ 27 :: rest)) := by
        rintro _ back hsplit ⟨body, rfl, hbody⟩
        obtain ⟨hc, hbodySplit⟩ := List.cons.inj hsplit
        obtain ⟨between, hfront⟩ := hbody.prefix_front hbodySplit
        exact hfree (27 :: body) between (by rw [hc, ← hfront]; rfl) ⟨body, rfl, hbody⟩
      rw [List.cons_append, stripAnsi_kept hlonger, stripAnsi_kept hfree, ih]
      rfl

/-! ## Interrupted sequences -/

/-- `Spread w t`: `t` is `w` with escape sequences in front of some of its
units. -/
inductive Spread : JsString → JsString → Prop
  | last (c : CodeUnit) : Spread [c] [c]
  | keep (c : CodeUnit) (w t : JsString) : Spread w t → Spread (c :: w) (c :: t)
  | skip (w escape t : JsString) : IsEscape escape → Spread w t → Spread w (escape ++ t)

/-- An escape sequence whose units are apart, with complete ones between them. -/
def Interrupted (s : JsString) : Prop :=
  ∃ front body text back, s = front ++ 27 :: (text ++ back) ∧ EscapeBody body ∧ Spread body text ∧
    text ≠ body

theorem Spread.ne_nil {w t : JsString} (h : Spread w t) : w ≠ [] := by
  induction h with
  | last c => simp
  | keep c w t _ _ => simp
  | skip w escape t _ _ ih => exact ih

/-- Up to the first sequence in between, the units are together. -/
theorem Spread.eq_or_gap {w t : JsString} (h : Spread w t) :
    t = w ∨ ∃ front back rest, w = front ++ back ∧ back ≠ [] ∧ t = front ++ 27 :: rest := by
  induction h with
  | last c => exact .inl rfl
  | keep c w t _ ih =>
      rcases ih with rfl | ⟨front, back, rest, rfl, hback, rfl⟩
      · exact .inl rfl
      · exact .inr ⟨c :: front, back, rest, rfl, hback, rfl⟩
  | skip w escape t hescape hspread _ =>
      obtain ⟨body, rfl, -⟩ := hescape
      exact .inr ⟨[], w, body ++ t, rfl, hspread.ne_nil, rfl⟩

/-- The sequences in between are removed, the units around them stay. -/
theorem Spread.stripAnsi_append {w t : JsString} (h : Spread w t) (hw : 27 ∉ w)
    (back : JsString) : stripAnsi (t ++ back) = w ++ stripAnsi back := by
  induction h with
  | last c =>
      have hc : c ≠ 27 := Ne.symm (List.mem_singleton.not.mp hw)
      rw [List.singleton_append, stripAnsi_kept (noEscapeAt_of_ne hc back)]
      rfl
  | keep c w t _ ih =>
      obtain ⟨hc, hw⟩ := not_or.mp (List.mem_cons.not.mp hw)
      rw [List.cons_append, stripAnsi_kept (noEscapeAt_of_ne (Ne.symm hc) _), ih hw]
      rfl
  | skip w escape t hescape _ ih =>
      rw [List.append_assoc, stripAnsi_escape hescape, ih hw]

/-- What is kept in sequence was spread over the text. -/
theorem exists_spread {w rest : JsString} (hw : w ≠ []) (s : JsString)
    (h : stripAnsi s = w ++ rest) : ∃ t back, s = t ++ back ∧ Spread w t := by
  induction s using strip_ind generalizing w with
  | nil =>
      exact absurd (List.append_eq_nil_iff.mp h.symm).1 hw
  | escape escape s hescape ih =>
      rw [stripAnsi_escape hescape] at h
      obtain ⟨t, back, rfl, hspread⟩ := ih hw h
      exact ⟨escape ++ t, back, (List.append_assoc _ _ _).symm, .skip w escape t hescape hspread⟩
  | kept c s hfree ih =>
      rw [stripAnsi_kept hfree] at h
      cases w with
      | nil => exact absurd rfl hw
      | cons d w =>
          obtain ⟨rfl, htail⟩ := List.cons.inj h
          by_cases hlast : w = []
          · subst hlast
            exact ⟨[c], s, rfl, .last c⟩
          · obtain ⟨t, back, rfl, hspread⟩ := ih hlast htail
            exact ⟨c :: t, back, rfl, .keep c w t hspread⟩

/-- A kept ESC stands in the text, and starts no sequence there. -/
theorem exists_kept_escape {front rest : JsString} (s : JsString)
    (h : stripAnsi s = front ++ 27 :: rest) :
    ∃ front' rest', s = front' ++ 27 :: rest' ∧ NoEscapeAt (27 :: rest') ∧
      stripAnsi rest' = rest := by
  induction s using strip_ind generalizing front with
  | nil => simp [stripAnsi, stripFrom] at h
  | escape escape s hescape ih =>
      rw [stripAnsi_escape hescape] at h
      obtain ⟨front', rest', rfl, hfree, hrest⟩ := ih h
      exact ⟨escape ++ front', rest', (List.append_assoc _ _ _).symm, hfree, hrest⟩
  | kept c s hfree ih =>
      rw [stripAnsi_kept hfree] at h
      cases front with
      | nil =>
          obtain ⟨rfl, hrest⟩ := List.cons.inj h
          exact ⟨[], s, rfl, hfree, hrest⟩
      | cons d front =>
          obtain ⟨rfl, htail⟩ := List.cons.inj h
          obtain ⟨front', rest', rfl, hkept, hrest⟩ := ih htail
          exact ⟨c :: front', rest', rfl, hkept, hrest⟩

/-- An escape sequence is left over exactly where one was interrupted. -/
theorem leaves_escape_iff (s : JsString) :
    (∃ front escape back, stripAnsi s = front ++ escape ++ back ∧ IsEscape escape) ↔
      Interrupted s := by
  constructor
  · rintro ⟨front, _, back, hstrip, body, rfl, hbody⟩
    rw [List.append_assoc] at hstrip
    obtain ⟨front', rest, rfl, hfree, hrest⟩ := exists_kept_escape s hstrip
    obtain ⟨text, back', rfl, hspread⟩ := exists_spread hbody.ne_nil rest hrest
    refine ⟨front', body, text, back', rfl, hbody, hspread, ?_⟩
    rintro rfl
    exact hfree (27 :: text) back' rfl ⟨text, rfl, hbody⟩
  · rintro ⟨front, body, text, back, rfl, hbody, hspread, hne⟩
    have hfree : NoEscapeAt (27 :: (text ++ back)) := by
      rintro _ rest hsplit ⟨body', rfl, hbody'⟩
      obtain ⟨together, apart, more, hsplitBody, hapart, rfl⟩ := hspread.eq_or_gap.resolve_left hne
      have hfront : together ++ 27 :: (more ++ back) = body' ++ rest := by
        have htail := (List.cons.inj hsplit).2
        rwa [List.append_assoc] at htail
      obtain ⟨between, rfl⟩ := hbody'.prefix_front hfront
      have hlength := escapeLength_body hbody []
      have hlength' := escapeLength_body hbody' (between ++ apart)
      rw [hsplitBody, List.append_nil, List.append_assoc, ← List.cons_append] at hlength
      rw [hlength] at hlength'
      have hpos := List.length_pos_of_ne_nil hapart
      simp only [List.length_append] at hlength'
      omega
    refine ⟨stripAnsi front, 27 :: body, stripAnsi back, ?_, body, rfl, hbody⟩
    rw [stripAnsi_append_escape, stripAnsi_kept hfree, hspread.stripAnsi_append hbody.no_escape]
    simp

/-! ## The two paths of a line -/

theorem exists_trim (s : JsString) : ∃ front back, s = front ++ trim s ++ back ∧
    (∀ c ∈ front, isTrimmed c = true) ∧ ∀ c ∈ back, isTrimmed c = true := by
  refine ⟨s.takeWhile isTrimmed, ((s.dropWhile isTrimmed).reverse.takeWhile isTrimmed).reverse,
    ?_, ?_, ?_⟩
  · have htail := List.takeWhile_append_dropWhile (p := isTrimmed)
      (l := (s.dropWhile isTrimmed).reverse)
    have hback := congrArg List.reverse htail
    rw [List.reverse_append, List.reverse_reverse] at hback
    rw [List.append_assoc, trim, hback, List.takeWhile_append_dropWhile]
  · exact fun c hc => List.mem_takeWhile_imp hc
  · exact fun c hc => List.mem_takeWhile_imp (List.mem_reverse.mp hc)

theorem trim_trim (s : JsString) : trim (trim s) = trim s := by
  obtain ⟨front, back, hs, hfront, hback⟩ := exists_trim s
  conv_rhs => rw [hs]
  rw [trim_append_right hback, trim_append_left hfront]

/-- A line that is clean after one pass is clean after two. -/
theorem cleanLine_cleanLine {s : JsString}
    (h : ∀ front escape back, stripAnsi s = front ++ escape ++ back → ¬ IsEscape escape) :
    cleanLine (cleanLine s) = cleanLine s := by
  obtain ⟨before, after, hs, -, -⟩ := exists_trim (stripAnsi s)
  have hfree : stripAnsi (cleanLine s) = cleanLine s := by
    apply stripAnsi_of_free
    intro front escape back hsplit
    apply h (before ++ front) escape (back ++ after)
    rw [hs]
    change before ++ cleanLine s ++ after = _
    rw [hsplit]
    simp
  rw [cleanLine, hfree, cleanLine, trim_trim]

theorem runtimeLogEntry_cleanLine (stack : ℕ) {s : JsString}
    (h : cleanLine (cleanLine s) = cleanLine s) (defaultContainerName : Option JsString) (stderr : Bool) :
    runtimeLogEntry stack (cleanLine s) defaultContainerName stderr =
      runtimeLogEntry stack s defaultContainerName stderr := by
  have hparse : parseDockerLogLine stack (cleanLine s) defaultContainerName =
      parseDockerLogLine stack s defaultContainerName := by
    obtain ⟨nestedCall, hcall⟩ := exists_parseCall stack
    rw [hcall, parseCall, parseCall, h]
  rw [runtimeLogEntry, runtimeLogEntry, hparse]

theorem mem_of_mem_stripAnsi (s : JsString) : ∀ c ∈ stripAnsi s, c ∈ s := by
  induction s using strip_ind with
  | nil => simp [stripAnsi, stripFrom]
  | escape escape rest hescape ih =>
      rw [stripAnsi_escape hescape]
      exact fun c hc => List.mem_append_right _ (ih c hc)
  | kept c rest hfree ih =>
      rw [stripAnsi_kept hfree]
      exact List.forall_mem_cons.mpr
        ⟨List.mem_cons_self, fun d hd => List.mem_cons_of_mem c (ih d hd)⟩

theorem cleanLine_of_blank {s : JsString} (h : trim s = []) : cleanLine s = [] :=
  cleanLine_eq_nil_iff.mpr fun c hc => trim_eq_nil_iff.mp h c (mem_of_mem_stripAnsi s c hc)

theorem lineEntry_nil (stack : ℕ) (containerName : JsString) (stderr : Bool) :
    lineEntry stack containerName stderr [] = none := by
  obtain ⟨nestedCall, hcall⟩ := exists_parseCall stack
  rw [lineEntry, runtimeLogEntry, hcall]
  rfl

/-- What the live log and the history show of a line is the same when cleaning it
twice is cleaning it once. -/
theorem shown_same {s : JsString} (h : cleanLine (cleanLine s) = cleanLine s)
    (hline : ∀ c ∈ s, isBreak c = false) (stack : ℕ) (containerName : JsString) (stderr : Bool) :
    (outputLines s).filterMap (lineEntry stack containerName stderr) =
      (streamLines s).filterMap (lineEntry stack containerName stderr) := by
  have hpieces := pieces_of_clean hline
  have hsplit : splitUnit 10 s = [s] := by
    apply splitUnit_of_not_mem
    intro hmem
    exact absurd (hline 10 hmem) (by decide)
  have hentry : lineEntry stack containerName stderr (cleanLine s) =
      lineEntry stack containerName stderr s := by
    rw [lineEntry, lineEntry, runtimeLogEntry_cleanLine stack h]
  rw [outputLines_eq, hpieces, visibleLines_singleton, streamLines, hsplit]
  by_cases hclean : cleanLine s = []
  · have hnone : lineEntry stack containerName stderr s = none := by
      rw [← hentry, hclean, lineEntry_nil]
    rw [if_pos hclean, List.filterMap_nil, eq_comm, List.filterMap_eq_nil_iff]
    intro line hmem
    obtain rfl := List.mem_singleton.mp (List.mem_of_mem_filter hmem)
    exact hnone
  · have htrim : trim s ≠ [] := fun hblank => hclean (cleanLine_of_blank hblank)
    rw [if_neg hclean, List.filter_cons_of_pos (by simpa using htrim), List.filter_nil,
      List.filterMap_cons, List.filterMap_cons, hentry]

/-- `stripAnsi` leaves no escape sequence exactly when none is interrupted. A
second pass then changes nothing, and the live log shows a line as the history
does. -/
theorem stripAnsi_complete_iff (s : JsString) :
    ((∀ front escape back, stripAnsi s = front ++ escape ++ back → ¬ IsEscape escape) ∧
      stripAnsi (stripAnsi s) = stripAnsi s ∧
      ((∀ c ∈ s, isBreak c = false) → ∀ stack containerName stderr,
        (outputLines s).filterMap (lineEntry stack containerName stderr) =
          (streamLines s).filterMap (lineEntry stack containerName stderr))) ↔
      ¬ Interrupted s := by
  rw [← leaves_escape_iff]
  constructor
  · rintro ⟨hfree, -, -⟩ ⟨front, escape, back, hstrip, hescape⟩
    exact hfree front escape back hstrip hescape
  · intro h
    have hfree : ∀ front escape back, stripAnsi s = front ++ escape ++ back → ¬ IsEscape escape :=
      fun front escape back hstrip hescape => h ⟨front, escape, back, hstrip, hescape⟩
    exact ⟨hfree, stripAnsi_of_free hfree, shown_same (cleanLine_cleanLine hfree)⟩

/-- ESC, a reset, and the rest of a colour. -/
def splitColour : JsString := js "\x1b\x1b[0m[31mready"

/-- The history shows the colour, the live log does not. -/
theorem stripAnsi_complete_fails :
    stripAnsi splitColour = js "\x1b[31mready" ∧ IsEscape (js "\x1b[31m") ∧
      stripAnsi (stripAnsi splitColour) = js "ready" ∧
      outputLines splitColour = [js "\x1b[31mready"] ∧
      (lineEntry 1000 (js "web") false (js "\x1b[31mready")).map DockerLogEntry.line =
        some (js "ready") ∧
      streamLines splitColour = [splitColour] ∧
      (lineEntry 1000 (js "web") false splitColour).map DockerLogEntry.line =
        some (js "\x1b[31mready") := by
  refine ⟨?_, ?_, ?_, ?_, ?_, ?_, ?_⟩
  · decide +kernel
  · have htext : js "\x1b[31m" = 27 :: 91 :: ([51, 49] ++ ([] ++ [109])) := by decide +kernel
    exact ⟨_, htext, .control [51, 49] [] 109 (by simp [isParameter]) (by simp) (by decide)⟩
  · decide +kernel
  · decide +kernel
  · decide +kernel
  · decide +kernel
  · decide +kernel

end OpticsAgent.Docker
