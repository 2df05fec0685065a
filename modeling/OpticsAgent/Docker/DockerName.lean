import Mathlib
import OpticsAgent.Node.Crypto

/-!
`toDockerName`: one name that is at once a container name, an image name and a
compose project name. Several layers apply it to a name that has already been
through it, so what matters most is that it is the identity on its own
results.
-/

namespace OpticsAgent.Docker

open OpticsAgent.Ecma OpticsAgent.Node

def isLowerAlnum (c : CodeUnit) : Bool :=
  (97 ≤ c.val && c.val ≤ 122) || (48 ≤ c.val && c.val ≤ 57)

/-- `[-_]`. -/
def isSeparator (c : CodeUnit) : Bool := c == 45 || c == 95

/-- The case mappings of `String`. Of `toLowerCase` only its behaviour on text
without letters to change is used, of `toUpperCase` nothing. -/
structure CaseMapping where
  toLowerCase : JsString → JsString
  toUpperCase : JsString → JsString
  lower_fixed : ∀ s, (∀ c ∈ s, isLowerAlnum c || isSeparator c) → toLowerCase s = s

/-- The case mappings of text that is all ASCII. -/
def asciiCase : CaseMapping where
  toLowerCase := List.map fun c => if 65 ≤ c.val ∧ c.val ≤ 90 then Fin.ofNat _ (c.val + 32) else c
  toUpperCase := List.map fun c => if 97 ≤ c.val ∧ c.val ≤ 122 then Fin.ofNat _ (c.val - 32) else c
  lower_fixed s h := by
    refine (List.map_congr_left fun c hc => if_neg ?_).trans (List.map_id s)
    intro hupper
    have hunit := h c hc
    simp [isLowerAlnum, isSeparator, Fin.ext_iff] at hunit
    omega

/-- `s.replace(/[p]+/g, f)`: every maximal run of units in the class is
replaced; `run` is the run being read. -/
def replaceRuns (p : CodeUnit → Bool) (f : JsString → JsString) : JsString → JsString → JsString
  | run, [] => f run
  | run, c :: rest =>
      if p c then replaceRuns p f (run ++ [c]) rest
      else f run ++ c :: replaceRuns p f [] rest

/-- `/[^a-z0-9_]+/g` to a hyphen. -/
def foldForeign (s : JsString) : JsString :=
  replaceRuns (fun c => !(isLowerAlnum c || c == 95)) (fun run => if run = [] then [] else [45]) [] s

/-- `/[-_]{2,}/g` to a hyphen. -/
def foldSeparators (s : JsString) : JsString :=
  replaceRuns isSeparator (fun run => if 2 ≤ run.length then [45] else run) [] s

/-- `/^[-_]+|[-_]+$/g` to nothing. -/
def stripSeparators (s : JsString) : JsString :=
  (s.dropWhile isSeparator).rdropWhile isSeparator

/-- `createHash('sha1').update(rawName).digest('hex').slice(0, 8)`. -/
def shortHash (rawName : JsString) : JsString :=
  (hexText (Sha1.hash (utf8Bytes rawName))).take 8

variable (casing : CaseMapping)

def toDockerName (rawName : JsString) : JsString :=
  let normalized := stripSeparators (foldSeparators (foldForeign (casing.toLowerCase rawName)))
  if normalized ≠ [] then normalized else js "service-" ++ shortHash rawName

example : toDockerName asciiCase (js "--Obsidian Livesync@v2--") = js "obsidian-livesync-v2" := by
  decide +kernel

/-! ## The shape of a docker name -/

/-- Runs of `[a-z0-9]` joined by single separators. -/
structure IsDockerName (s : JsString) : Prop where
  nonempty : s ≠ []
  units : ∀ c ∈ s, isLowerAlnum c || isSeparator c
  single : s.IsChain fun a b => ¬ (isSeparator a ∧ isSeparator b)
  first : ∀ c, s.head? = some c → isSeparator c = false
  last : ∀ c, s.getLast? = some c → isSeparator c = false

section Runs

variable {p : CodeUnit → Bool} {f : JsString → JsString}

/-- A unit of the result is one outside the class, or one of a replacement. -/
theorem mem_replaceRuns {run s : JsString} {c : CodeUnit} (h : c ∈ replaceRuns p f run s) :
    (c ∈ s ∧ p c = false) ∨ ∃ run', c ∈ f run' ∧ ∀ d ∈ run', d ∈ run ∨ d ∈ s := by
  induction s generalizing run with
  | nil => exact Or.inr ⟨run, h, fun d hd => Or.inl hd⟩
  | cons d rest ih =>
      unfold replaceRuns at h
      split_ifs at h with hd
      · rcases ih h with ⟨hmem, hout⟩ | ⟨run', hmem, hrun⟩
        · exact Or.inl ⟨List.mem_cons_of_mem d hmem, hout⟩
        · refine Or.inr ⟨run', hmem, fun e he => ?_⟩
          rcases hrun e he with hold | hrest
          · rcases List.mem_append.mp hold with hold | hlast
            · exact Or.inl hold
            · rw [List.mem_singleton.mp hlast]
              exact Or.inr List.mem_cons_self
          · exact Or.inr (List.mem_cons_of_mem d hrest)
      · rcases List.mem_append.mp h with hmem | hmem
        · exact Or.inr ⟨run, hmem, fun e he => Or.inl he⟩
        · rcases List.mem_cons.mp hmem with rfl | hmem
          · exact Or.inl ⟨List.mem_cons_self, Bool.eq_false_iff.mpr hd⟩
          · rcases ih hmem with ⟨hrest, hout⟩ | ⟨run', hf, hrun⟩
            · exact Or.inl ⟨List.mem_cons_of_mem d hrest, hout⟩
            · refine Or.inr ⟨run', hf, fun e he => ?_⟩
              rcases hrun e he with hnone | hrest
              · cases hnone
              · exact Or.inr (List.mem_cons_of_mem d hrest)

end Runs

theorem units_foldForeign (s : JsString) :
    ∀ c ∈ foldForeign s, isLowerAlnum c || isSeparator c := by
  intro c hc
  rcases mem_replaceRuns hc with ⟨-, hplain⟩ | ⟨run, hmem, -⟩
  · rw [Bool.not_eq_false', Bool.or_eq_true] at hplain
    rcases hplain with halnum | hunder
    · rw [halnum, Bool.true_or]
    · rw [isSeparator, hunder, Bool.or_true, Bool.or_true]
  · split_ifs at hmem with hrun
    · cases hmem
    · rw [List.mem_singleton.mp hmem]
      rfl

theorem units_foldSeparators {s : JsString} (h : ∀ c ∈ s, isLowerAlnum c || isSeparator c) :
    ∀ c ∈ foldSeparators s, isLowerAlnum c || isSeparator c := by
  intro c hc
  rcases mem_replaceRuns hc with ⟨hmem, -⟩ | ⟨run, hmem, hrun⟩
  · exact h c hmem
  · split_ifs at hmem
    · rw [List.mem_singleton.mp hmem]
      rfl
    · rcases hrun c hmem with hnone | hs
      · cases hnone
      · exact h c hs

theorem stripSeparators_part (s : JsString) : stripSeparators s <:+: s :=
  (List.rdropWhile_prefix _ _).isInfix.trans (List.dropWhile_suffix _).isInfix

/-- No two separators in a row. -/
def Single (s : JsString) : Prop := s.IsChain fun a b => ¬ (isSeparator a ∧ isSeparator b)

theorem single_cons {c : CodeUnit} {s : JsString} (hc : isSeparator c = false) (h : Single s) :
    Single (c :: s) := by
  refine List.isChain_cons.mpr ⟨?_, h⟩
  intro d _ hboth
  rw [hc] at hboth
  cases hboth.1

/-- A run of at least two is folded, and what follows a run is no separator. -/
theorem single_replaceRuns (run s : JsString) :
    Single (replaceRuns isSeparator (fun run => if 2 ≤ run.length then [45] else run) run s) := by
  induction s generalizing run with
  | nil =>
      unfold replaceRuns
      split_ifs with hlong
      · exact List.isChain_singleton _
      · match run, hlong with
        | [], _ => exact List.isChain_nil
        | [c], _ => exact List.isChain_singleton c
        | c :: d :: rest, hlong => exact absurd (by simp) hlong
  | cons c rest ih =>
      unfold replaceRuns
      split_ifs with hc hlong
      · exact ih (run ++ [c])
      · have htail := single_cons (Bool.eq_false_iff.mpr hc) (ih [])
        exact List.isChain_cons_cons.mpr ⟨fun hboth => hc hboth.2, htail⟩
      · have htail := single_cons (Bool.eq_false_iff.mpr hc) (ih [])
        match run, hlong with
        | [], _ => exact htail
        | [d], _ => exact List.isChain_cons_cons.mpr ⟨fun hboth => hc hboth.2, htail⟩
        | d :: e :: run, hlong => exact absurd (by simp) hlong

theorem isDockerName_normalized {s : JsString}
    (hnonempty : stripSeparators (foldSeparators (foldForeign s)) ≠ []) :
    IsDockerName (stripSeparators (foldSeparators (foldForeign s))) := by
  have hpart := stripSeparators_part (foldSeparators (foldForeign s))
  refine ⟨hnonempty, ?_, ?_, ?_, ?_⟩
  · intro c hc
    exact units_foldSeparators (units_foldForeign s) c (hpart.subset hc)
  · exact List.IsChain.infix (single_replaceRuns [] (foldForeign s)) hpart
  · intro c hc
    obtain ⟨tail, htail⟩ := List.rdropWhile_prefix isSeparator
      ((foldSeparators (foldForeign s)).dropWhile isSeparator)
    have hhead : ((foldSeparators (foldForeign s)).dropWhile isSeparator).head? = some c := by
      rw [← htail, List.head?_append]
      change (stripSeparators (foldSeparators (foldForeign s))).head?.or _ = _
      rw [hc]
      rfl
    have hfirst := List.head?_dropWhile_not isSeparator (foldSeparators (foldForeign s))
    rw [hhead] at hfirst
    exact hfirst
  · intro c hc
    have hlast := List.rdropWhile_last_not isSeparator _ hnonempty
    rw [List.getLast?_eq_some_getLast hnonempty, Option.some.injEq] at hc
    rw [← hc]
    exact Bool.eq_false_iff.mpr hlast

theorem length_shortHash (rawName : JsString) : (shortHash rawName).length = 8 :=
  rfl

theorem isLowerAlnum_hexUnit (d : Fin 16) : isLowerAlnum (hexUnit d) = true := by
  revert d
  decide

theorem units_shortHash (rawName : JsString) : ∀ c ∈ shortHash rawName, isLowerAlnum c = true := by
  intro c hc
  obtain ⟨b, -, hb⟩ := List.mem_flatMap.mp (List.mem_of_mem_take hc)
  rcases List.mem_cons.mp hb with rfl | hb
  · exact isLowerAlnum_hexUnit _
  · rw [List.mem_singleton.mp hb]
    exact isLowerAlnum_hexUnit _

theorem isSeparator_of_isLowerAlnum {c : CodeUnit} (h : isLowerAlnum c = true) :
    isSeparator c = false := by
  rw [← Bool.not_eq_true]
  intro hseparator
  rw [isSeparator, Bool.or_eq_true, beq_iff_eq, beq_iff_eq] at hseparator
  rcases hseparator with rfl | rfl
  · exact absurd h (by decide)
  · exact absurd h (by decide)

theorem single_of_plain {s t : JsString} (hs : ∀ c ∈ s, isSeparator c = false) (ht : Single t) :
    Single (s ++ t) := by
  induction s with
  | nil => exact ht
  | cons c rest ih =>
      obtain ⟨hc, hrest⟩ := List.forall_mem_cons.mp hs
      exact single_cons hc (ih hrest)

theorem isDockerName_fallback (rawName : JsString) :
    IsDockerName (js "service-" ++ shortHash rawName) := by
  have hplain : ∀ c ∈ shortHash rawName, isSeparator c = false := fun c hc =>
    isSeparator_of_isLowerAlnum (units_shortHash rawName c hc)
  have hhash : Single (shortHash rawName) := by
    have h := single_of_plain hplain List.isChain_nil
    rwa [List.append_nil] at h
  have hne : shortHash rawName ≠ [] := by
    apply List.ne_nil_of_length_pos
    rw [length_shortHash]
    decide
  refine ⟨by simp [hne], ?_, ?_, ?_, ?_⟩
  · intro c hc
    have hservice : ∀ c ∈ js "service-", isLowerAlnum c || isSeparator c :=
      List.all_eq_true.mp (by decide)
    rcases List.mem_append.mp hc with hword | hhex
    · exact hservice c hword
    · rw [units_shortHash rawName c hhex, Bool.true_or]
  · have hservice : ∀ c ∈ js "service", isSeparator c = false := fun c hc =>
      isSeparator_of_isLowerAlnum
        (List.all_eq_true.mp (by decide : (js "service").all isLowerAlnum) c hc)
    change Single (js "service" ++ 45 :: shortHash rawName)
    apply single_of_plain hservice
    refine List.isChain_cons.mpr ⟨?_, hhash⟩
    intro d hd hboth
    rw [hplain d (List.mem_of_mem_head? hd)] at hboth
    cases hboth.2
  · intro c hc
    obtain rfl : (115 : CodeUnit) = c := Option.some.inj hc
    decide
  · intro c hc
    rw [List.getLast?_append_of_ne_nil _ hne] at hc
    exact hplain c (List.mem_of_mem_getLast? hc)

theorem isDockerName_toDockerName (rawName : JsString) :
    IsDockerName (toDockerName casing rawName) := by
  unfold toDockerName
  dsimp only
  split_ifs with hnonempty
  · exact isDockerName_normalized hnonempty
  · exact isDockerName_fallback rawName

/-! ## Docker names are left alone -/

/-- Text whose every run the replacement fixes. -/
theorem replaceRuns_of_fixed {p : CodeUnit → Bool} {f : JsString → JsString}
    {run s : JsString} (hfixed : ∀ part, part <:+: run ++ s → (∀ c ∈ part, p c = true) →
      f part = part) (hrun : ∀ c ∈ run, p c = true) :
    replaceRuns p f run s = run ++ s := by
  induction s generalizing run with
  | nil =>
      rw [List.append_nil] at hfixed ⊢
      exact hfixed run (List.infix_refl run) hrun
  | cons c rest ih =>
      unfold replaceRuns
      split_ifs with hc
      · rw [ih]
        · simp
        · intro part hpart
          exact hfixed part (by simpa using hpart)
        · intro d hd
          rcases List.mem_append.mp hd with hold | hlast
          · exact hrun d hold
          · rw [List.mem_singleton.mp hlast]
            exact hc
      · rw [hfixed run (List.prefix_append _ _).isInfix hrun, ih]
        · rfl
        · intro part hpart
          exact hfixed part (hpart.trans ⟨run ++ [c], [], by simp⟩)
        · simp

/-- A run of separators in a docker name has at most one unit. -/
theorem length_le_one_of_single {part : JsString} (h : Single part)
    (hseparators : ∀ c ∈ part, isSeparator c = true) : part = [] ∨ ∃ c, part = [c] := by
  match part with
  | [] => exact Or.inl rfl
  | [c] => exact Or.inr ⟨c, rfl⟩
  | c :: d :: rest =>
      have hpair := (List.isChain_cons_cons.mp h).1
      exact absurd ⟨hseparators c (by simp), hseparators d (by simp)⟩ hpair

theorem foldForeign_of_isDockerName {s : JsString} (h : IsDockerName s) : foldForeign s = s := by
  apply replaceRuns_of_fixed _ (by simp)
  intro part hpart hforeign
  have hhyphen : ∀ c ∈ part, c = 45 := by
    intro c hc
    have hunit := h.units c (hpart.subset hc)
    have hout := hforeign c hc
    rw [Bool.not_eq_true', Bool.or_eq_false_iff] at hout
    rw [hout.1, Bool.false_or, isSeparator, hout.2, Bool.or_false, beq_iff_eq] at hunit
    exact hunit
  have hsingle := List.IsChain.infix h.single hpart
  rcases length_le_one_of_single hsingle (fun c hc => by rw [hhyphen c hc]; rfl)
    with rfl | ⟨c, rfl⟩
  · rfl
  · rw [hhyphen c (by simp)]
    rfl

theorem foldSeparators_of_isDockerName {s : JsString} (h : IsDockerName s) :
    foldSeparators s = s := by
  apply replaceRuns_of_fixed _ (by simp)
  intro part hpart hseparators
  have hsingle := List.IsChain.infix h.single hpart
  rcases length_le_one_of_single hsingle hseparators with rfl | ⟨c, rfl⟩
  · rfl
  · rfl

theorem stripSeparators_of_isDockerName {s : JsString} (h : IsDockerName s) :
    stripSeparators s = s := by
  have hfront : s.dropWhile isSeparator = s := by
    cases s with
    | nil => rfl
    | cons c rest => rw [List.dropWhile_cons, if_neg (by simp [h.first c rfl])]
  unfold stripSeparators
  rw [hfront, List.rdropWhile_eq_self_iff]
  intro hne
  have hlast := h.last _ (List.getLast?_eq_some_getLast hne)
  exact Bool.eq_false_iff.mp hlast

/-- The layers that normalize a name again get the same name. -/
theorem toDockerName_of_isDockerName {s : JsString} (h : IsDockerName s) :
    toDockerName casing s = s := by
  unfold toDockerName
  rw [casing.lower_fixed s h.units, foldForeign_of_isDockerName h,
    foldSeparators_of_isDockerName h, stripSeparators_of_isDockerName h, if_pos h.nonempty]

theorem toDockerName_idem (rawName : JsString) :
    toDockerName casing (toDockerName casing rawName) = toDockerName casing rawName :=
  toDockerName_of_isDockerName casing (isDockerName_toDockerName casing rawName)

end OpticsAgent.Docker
