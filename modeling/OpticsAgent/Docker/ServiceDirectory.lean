import Mathlib
import OpticsAgent.Docker.BuildWorkspace

/-!
The directory of a service below the build root. Deploying and deleting a
service remove it with everything in it, on the host or in a helper container
that runs as root, so its name must not lead anywhere else.
-/

namespace OpticsAgent.Docker

open OpticsAgent.Ecma OpticsAgent.Node

/-! ## The grammar of docker names -/

/-- One or more runs of `[a-z0-9]` joined by single separators. -/
inductive NameRuns : JsString → Prop
  | run {s : JsString} (nonempty : s ≠ []) (units : ∀ c ∈ s, isLowerAlnum c = true) : NameRuns s
  | joined {s rest : JsString} {c : CodeUnit} (nonempty : s ≠ [])
      (units : ∀ c ∈ s, isLowerAlnum c = true) (separator : isSeparator c = true)
      (more : NameRuns rest) : NameRuns (s ++ c :: rest)

theorem isDockerName_run {s : JsString} (hnonempty : s ≠ [])
    (hunits : ∀ c ∈ s, isLowerAlnum c = true) : IsDockerName s := by
  have hplain : ∀ c ∈ s, isSeparator c = false := fun c hc =>
    isSeparator_of_isLowerAlnum (hunits c hc)
  refine ⟨hnonempty, fun c hc => by rw [hunits c hc, Bool.true_or], ?_, ?_, ?_⟩
  · have hsingle := single_of_plain hplain List.isChain_nil
    rwa [List.append_nil] at hsingle
  · exact fun c hc => hplain c (List.mem_of_mem_head? hc)
  · exact fun c hc => hplain c (List.mem_of_mem_getLast? hc)

theorem isDockerName_joined {s rest : JsString} {c : CodeUnit} (hnonempty : s ≠ [])
    (hunits : ∀ c ∈ s, isLowerAlnum c = true) (hseparator : isSeparator c = true)
    (hrest : IsDockerName rest) : IsDockerName (s ++ c :: rest) := by
  have hrun := isDockerName_run hnonempty hunits
  refine ⟨by simp, ?_, ?_, ?_, ?_⟩
  · intro d hd
    rcases List.mem_append.mp hd with hs | hd
    · exact hrun.units d hs
    · rcases List.mem_cons.mp hd with rfl | hd
      · rw [hseparator, Bool.or_true]
      · exact hrest.units d hd
  · have htail : Single (c :: rest) := by
      refine List.isChain_cons.mpr ⟨fun d hd hboth => ?_, hrest.single⟩
      cases hboth.2.symm.trans (hrest.first d hd)
    exact single_of_plain (fun d hd => isSeparator_of_isLowerAlnum (hunits d hd)) htail
  · intro d hd
    rw [List.head?_append_of_ne_nil _ hnonempty] at hd
    exact hrun.first d hd
  · intro d hd
    rw [List.getLast?_append_of_ne_nil _ (by simp), List.getLast?_cons_of_ne_nil hrest.nonempty]
      at hd
    exact hrest.last d hd

/-- What follows the first separator of a docker name is a docker name. -/
theorem isDockerName_rest {s rest : JsString} {c : CodeUnit} (h : IsDockerName (s ++ c :: rest))
    (hseparator : isSeparator c = true) : IsDockerName rest := by
  have hpart : rest <:+: s ++ c :: rest := ⟨s ++ [c], [], by simp⟩
  have hnonempty : rest ≠ [] := by
    rintro rfl
    cases hseparator.symm.trans (h.last c (by simp))
  refine ⟨hnonempty, fun d hd => h.units d (hpart.subset hd), List.IsChain.infix h.single hpart,
    ?_, ?_⟩
  · intro d hd
    have htail : Single (c :: rest) :=
      List.IsChain.infix h.single (List.suffix_append s (c :: rest)).isInfix
    exact Bool.eq_false_iff.mpr fun hboth =>
      (List.isChain_cons.mp htail).1 d hd ⟨hseparator, hboth⟩
  · intro d hd
    refine h.last d ?_
    rw [List.getLast?_append_of_ne_nil _ (by simp), List.getLast?_cons_of_ne_nil hnonempty, hd]

theorem nameRuns_iff {s : JsString} : NameRuns s ↔ IsDockerName s := by
  constructor
  · intro h
    induction h with
    | run hnonempty hunits => exact isDockerName_run hnonempty hunits
    | joined hnonempty hunits hseparator _ ih =>
        exact isDockerName_joined hnonempty hunits hseparator ih
  · intro h
    induction hlength : s.length using Nat.strong_induction_on generalizing s with
    | _ n ih =>
      have hfront : ∀ c ∈ s.takeWhile isLowerAlnum, isLowerAlnum c = true := fun c hc =>
        List.mem_takeWhile_imp hc
      have hsplit : s.takeWhile isLowerAlnum ++ s.dropWhile isLowerAlnum = s :=
        List.takeWhile_append_dropWhile
      cases hrest : s.dropWhile isLowerAlnum with
      | nil =>
          rw [hrest, List.append_nil] at hsplit
          rw [hsplit] at hfront
          exact .run h.nonempty hfront
      | cons c rest =>
          rw [hrest] at hsplit
          have hhead := List.head?_dropWhile_not isLowerAlnum s
          rw [hrest] at hhead
          have hforeign : isLowerAlnum c = false := by simpa using hhead
          have hseparator : isSeparator c = true := by
            have hunit := h.units c (by rw [← hsplit]; simp)
            rwa [hforeign, Bool.false_or] at hunit
          have hnonempty : s.takeWhile isLowerAlnum ≠ [] := by
            intro hempty
            rw [hempty, List.nil_append] at hsplit
            cases hseparator.symm.trans (h.first c (by rw [← hsplit]; rfl))
          have hshort : rest.length < n := by
            have hlengths := congrArg List.length hsplit
            rw [List.length_append, List.length_cons, hlength] at hlengths
            omega
          rw [← hsplit] at h ⊢
          exact .joined hnonempty hfront hseparator
            (ih rest.length hshort (isDockerName_rest h hseparator) rfl)

/-! ## The directory -/

theorem IsDockerName.isName {s : JsString} (h : IsDockerName s) : Path.IsName s := by
  have hunit : ∀ c ∈ s, c ≠ 47 ∧ c ≠ 46 := by
    intro c hc
    have hshape := h.units c hc
    refine ⟨?_, ?_⟩ <;>
      · rintro rfl
        exact absurd hshape (by decide)
  refine ⟨h.nonempty, fun hslash => (hunit 47 hslash).1 rfl, ?_, ?_⟩
  · rintro rfl
    exact (hunit 46 List.mem_cons_self).2 rfl
  · rintro rfl
    exact (hunit 46 List.mem_cons_self).2 rfl

variable (settings : Settings)

/-- The directory that deploying and deleting a service removes. -/
def serviceDirectory (rawName : JsString) : JsString :=
  Path.join [settings.buildRoot, toDockerName settings.casing rawName]

/-- A directory with a name in the workspace is passed on under that name. -/
theorem toContainerPath_join {name : JsString} (h : Path.IsName name)
    (hup : startsWith name (js "..") = false) (label : JsString) :
    toContainerPath settings (Path.join [settings.buildRoot, name]) label =
      pure (js "/workspace/" ++ name) := by
  unfold toContainerPath
  simp only [Path.relative_join h, Path.isAbsolute_of_not_mem h.noSlash, hup, Bool.or_false,
    Bool.false_eq_true, if_false]

theorem IsDockerName.not_up {s : JsString} (h : IsDockerName s) :
    startsWith s (js "..") = false := by
  rw [← Bool.not_eq_true, startsWith_iff]
  rintro ⟨rest, rfl⟩
  exact absurd (h.units 46 (by simp [js, utf16])) (by decide)

theorem iterate_toDockerName (casing : CaseMapping) (rawName : JsString) (n : ℕ) :
    (toDockerName casing)^[n + 1] rawName = toDockerName casing rawName := by
  induction n with
  | zero => rfl
  | succ n ih => rw [Function.iterate_succ_apply', ih, toDockerName_idem]

/-- Docker names follow the grammar, are fixed points, and name a directory
right below the build root, on the host and in the helper container. -/
theorem toDockerName_valid_stable_confined (rawName : JsString) :
    NameRuns (toDockerName settings.casing rawName) ∧
      (∀ name, NameRuns name → toDockerName settings.casing name = name) ∧
      (∀ n, (toDockerName settings.casing)^[n + 1] rawName =
        toDockerName settings.casing rawName) ∧
      Path.segments settings.cwd (serviceDirectory settings rawName) =
        Path.segments settings.cwd settings.buildRoot ++ [toDockerName settings.casing rawName] ∧
      ∀ label, toContainerPath settings (serviceDirectory settings rawName) label =
        pure (js "/workspace/" ++ toDockerName settings.casing rawName) := by
  have hname := isDockerName_toDockerName settings.casing rawName
  refine ⟨nameRuns_iff.mpr hname, fun name hruns => ?_, ?_, ?_, ?_⟩
  · exact toDockerName_of_isDockerName settings.casing (nameRuns_iff.mp hruns)
  · exact iterate_toDockerName settings.casing rawName
  · exact Path.segments_join hname.isName
  · exact toContainerPath_join settings hname.isName hname.not_up

end OpticsAgent.Docker
