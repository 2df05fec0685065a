import Mathlib
import OpticsAgent.Docker.ServiceDirectory

/-!
Where `cloneAll` puts several repositories: each in the directory its URL names,
below the directory of the service.
-/

namespace OpticsAgent.Docker

open OpticsAgent.Ecma OpticsAgent.Node OpticsAgent.Lib Agent

/-! ## Children of a directory -/

/-- `directory` has a name of its own in `parent`. -/
def IsChild (cwd parent directory : JsString) : Prop :=
  ∃ name, Path.IsName name ∧ Path.segments cwd directory = Path.segments cwd parent ++ [name]

theorem segments_join_flat {cwd directory part : JsString} (hslash : 47 ∉ part) :
    Path.segments cwd (Path.join [directory, part]) =
      (Path.pushSegment false (Path.segments cwd directory).reverse part).reverse := by
  rw [Path.segments_join_part (Path.isAbsolute_of_not_mem hslash), Path.enter,
    splitUnit_of_not_mem hslash]
  rfl

theorem length_pushSegment_le (done : List JsString) {part : JsString}
    (h : part = [] ∨ part = [46] ∨ part = [46, 46]) :
    (Path.pushSegment false done part).length ≤ done.length := by
  rcases h with rfl | rfl | rfl
  · exact le_refl _
  · exact le_refl _
  · cases done with
    | nil => simp [Path.pushSegment]
    | cons last rest =>
        by_cases hlast : last = [46, 46]
        · simp [Path.pushSegment, hlast]
        · simp [Path.pushSegment, hlast]

/-- A part without slashes leads to a child exactly when it is a name. -/
theorem isChild_join_iff {cwd parent part : JsString} (hslash : 47 ∉ part) :
    IsChild cwd parent (Path.join [parent, part]) ↔ Path.IsName part := by
  constructor
  · rintro ⟨name, -, hsegments⟩
    have hlength : ¬ (part = [] ∨ part = [46] ∨ part = [46, 46]) := by
      intro hspecial
      have hle := length_pushSegment_le (Path.segments cwd parent).reverse hspecial
      have hlengths := congrArg List.length hsegments
      rw [segments_join_flat hslash, List.length_reverse, List.length_append,
        List.length_singleton] at hlengths
      rw [List.length_reverse] at hle
      omega
    obtain ⟨hempty, hrest⟩ := not_or.mp hlength
    obtain ⟨hhere, hup⟩ := not_or.mp hrest
    exact ⟨hempty, hslash, hhere, hup⟩
  · intro hname
    exact ⟨part, hname, Path.segments_join hname⟩

theorem slash_not_mem_repoName (url : JsString) : 47 ∉ repoName url := by
  have hlast : 47 ∉ (splitUnit 47 url).getLast?.getD (js "repo") := by
    cases hparts : (splitUnit 47 url).getLast? with
    | none =>
        change 47 ∉ js "repo"
        decide
    | some part => exact not_mem_of_mem_splitUnit (List.mem_of_mem_getLast? hparts)
  unfold repoName dropGitSuffix
  split_ifs
  · exact fun hmem => hlast (List.mem_of_mem_take hmem)
  · exact hlast

/-! ## The directories of the clones -/

variable (settings : Settings)

/-- The directory `cloneAll` clones a repository into when there are several. -/
def cloneDirectory (serviceDir url : JsString) : JsString :=
  Path.join [serviceDir, repoName url]

/-- The repositories cloned one after the other, each into its directory. -/
def cloneInto (serviceDir : JsString) (targets : List (JsString × JsString)) (main : JsString)
    (sendLine : JsString → Agent Unit) : Agent JsString := do
  await (← call (.mkdirSync serviceDir))
  targets.forM fun target => cloneInGitContainer settings target.1 target.2 sendLine
  sendLine (js "[BuildWorkspaceService] All Repository Successfully Cloned.")
  pure main

/-- Each repository has a directory of its own right below the one of the
service, and the first one is the main one. -/
structure SeparateClones (serviceDir : JsString) (directories : List JsString) (main : JsString) :
    Prop where
  distinct : directories.Pairwise fun a b =>
    Path.segments settings.cwd a ≠ Path.segments settings.cwd b
  child : ∀ directory ∈ directories, IsChild settings.cwd serviceDir directory
  first : directories.head? = some main

/-- The URLs end in different names that are names of directories. -/
structure NamesApart (urls : List JsString) : Prop where
  distinct : (urls.map repoName).Nodup
  name : ∀ url ∈ urls, repoName url ≠ [] ∧ repoName url ≠ js "." ∧ repoName url ≠ js ".."

theorem cloneEach_eq (serviceDir : JsString) (sendLine : JsString → Agent Unit)
    (urls : List JsString) :
    cloneEach settings serviceDir sendLine urls =
      (urls.map fun url => (url, cloneDirectory serviceDir url)).forM fun target =>
        cloneInGitContainer settings target.1 target.2 sendLine := by
  induction urls with
  | nil => rfl
  | cons url rest ih =>
      rw [cloneEach, ih]
      rfl

theorem NamesApart.isName {urls : List JsString} (h : NamesApart urls) {url : JsString}
    (hurl : url ∈ urls) : Path.IsName (repoName url) := by
  obtain ⟨hempty, hhere, hup⟩ := h.name url hurl
  exact ⟨hempty, slash_not_mem_repoName url, hhere, hup⟩

theorem namesApart_of_separate {serviceDir main : JsString} {urls : List JsString}
    (h : SeparateClones settings serviceDir (urls.map (cloneDirectory serviceDir)) main) :
    NamesApart urls := by
  constructor
  · apply List.pairwise_map.mpr
    apply (List.pairwise_map.mp h.distinct).imp
    intro a b hsegments hname
    apply hsegments
    rw [cloneDirectory, cloneDirectory, hname]
  · intro url hurl
    have hchild := h.child _ (List.mem_map_of_mem hurl)
    have hname := (isChild_join_iff (slash_not_mem_repoName url)).mp hchild
    exact ⟨hname.nonempty, hname.notHere, hname.notUp⟩

theorem separate_of_namesApart {serviceDir main : JsString} {urls : List JsString}
    (hmain : (urls.map (cloneDirectory serviceDir)).head? = some main) (h : NamesApart urls) :
    SeparateClones settings serviceDir (urls.map (cloneDirectory serviceDir)) main := by
  refine ⟨?_, ?_, hmain⟩
  · apply List.pairwise_map.mpr
    apply (List.pairwise_map.mp h.distinct).imp_of_mem
    intro a b ha hb hname hsegments
    apply hname
    rw [cloneDirectory, cloneDirectory, Path.segments_join (h.isName ha),
      Path.segments_join (h.isName hb)] at hsegments
    exact List.singleton_inj.mp (List.append_cancel_left hsegments)
  · intro directory hdirectory
    obtain ⟨url, hurl, rfl⟩ := List.mem_map.mp hdirectory
    exact (isChild_join_iff (slash_not_mem_repoName url)).mpr (h.isName hurl)

/-- The URLs that are cloned. -/
def sourceUrls (sourceUrl : SourceUrl) : List JsString :=
  (normalizeSourceRepositories sourceUrl).map (·.url)

theorem cloneAll_eq {sourceUrl : SourceUrl} {first second : JsString} {rest : List JsString}
    (hurls : sourceUrls sourceUrl = first :: second :: rest) (serviceDir : JsString)
    (sendLine : JsString → Agent Unit) :
    cloneAll settings sourceUrl serviceDir sendLine =
      cloneInto settings serviceDir
        ((sourceUrls sourceUrl).map fun url => (url, cloneDirectory serviceDir url))
        (cloneDirectory serviceDir first) sendLine := by
  unfold sourceUrls at hurls ⊢
  unfold cloneAll cloneInto
  rw [← cloneEach_eq, hurls]
  rfl

/-- Several different repositories are cloned into directories of their own, and
the first of them is returned, exactly when their URLs end in different names
that can name a directory. -/
theorem clones_separate_iff (sourceUrl : SourceUrl) (serviceDir : JsString)
    (sendLine : JsString → Agent Unit) (hmany : 2 ≤ (sourceUrls sourceUrl).length) :
    ∃ main, cloneAll settings sourceUrl serviceDir sendLine =
        cloneInto settings serviceDir
          ((sourceUrls sourceUrl).map fun url => (url, cloneDirectory serviceDir url)) main
          sendLine ∧
      (SeparateClones settings serviceDir
          ((sourceUrls sourceUrl).map (cloneDirectory serviceDir)) main ↔
        NamesApart (sourceUrls sourceUrl)) := by
  have hurls : ∃ first second rest, sourceUrls sourceUrl = first :: second :: rest := by
    cases hcases : sourceUrls sourceUrl with
    | nil => simp [hcases] at hmany
    | cons first tail =>
        cases tail with
        | nil => simp [hcases] at hmany
        | cons second rest => exact ⟨first, second, rest, rfl⟩
  obtain ⟨first, second, rest, hurls⟩ := hurls
  refine ⟨cloneDirectory serviceDir first, ?_, ?_, ?_⟩
  · exact cloneAll_eq settings hurls serviceDir sendLine
  · exact namesApart_of_separate settings
  · apply separate_of_namesApart settings
    rw [hurls]
    rfl

/-- Two repositories of one name. -/
def sameName : SourceUrl :=
  .many [.url (js "https://example.com/a/app.git"), .url (js "https://example.com/b/app.git")]

theorem sourceUrls_sameName : sourceUrls sameName =
    [js "https://example.com/a/app.git", js "https://example.com/b/app.git"] := by
  decide

theorem repoName_sameName : (sourceUrls sameName).map repoName = [js "app", js "app"] := by
  decide

theorem clones_separate_iff_same_name :
    ∃ main, cloneAll hostSettings sameName (js "/data/build/web") (fun _ => pure ()) =
        cloneInto hostSettings (js "/data/build/web")
          ((sourceUrls sameName).map fun url => (url, cloneDirectory (js "/data/build/web") url))
          main (fun _ => pure ()) ∧
      (SeparateClones hostSettings (js "/data/build/web")
          ((sourceUrls sameName).map (cloneDirectory (js "/data/build/web"))) main ↔
        NamesApart (sourceUrls sameName)) :=
  clones_separate_iff hostSettings sameName (js "/data/build/web") (fun _ => pure ())
    (by rw [sourceUrls_sameName]; exact le_refl _)

/-- Both are cloned into one directory. -/
theorem clones_separate_fails :
    (sourceUrls sameName).length = 2 ∧ (sourceUrls sameName).Nodup ∧
      ∃ main, cloneAll hostSettings sameName (js "/data/build/web") (fun _ => pure ()) =
          cloneInto hostSettings (js "/data/build/web")
            ((sourceUrls sameName).map fun url => (url, cloneDirectory (js "/data/build/web") url))
            main (fun _ => pure ()) ∧
        ¬ SeparateClones hostSettings (js "/data/build/web")
          ((sourceUrls sameName).map (cloneDirectory (js "/data/build/web"))) main := by
  refine ⟨?_, ?_, _, cloneAll_eq hostSettings sourceUrls_sameName _ _, ?_⟩
  · rw [sourceUrls_sameName]
    rfl
  · rw [sourceUrls_sameName]
    decide
  · intro hseparate
    have hdistinct := (namesApart_of_separate hostSettings hseparate).distinct
    rw [repoName_sameName] at hdistinct
    exact absurd hdistinct (by simp)

end OpticsAgent.Docker
