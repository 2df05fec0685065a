import Mathlib
import OpticsAgent.Ecma.Coercion
import OpticsAgent.Ecma.JsonParse
import OpticsAgent.Lib.Framing
import OpticsAgent.Node.Path

/-!
The version the agent reports of itself. The search for `package.json` goes up
from the directory of the code, so it is the nearest one that counts, wherever
the code has been moved to below it.
-/

namespace OpticsAgent.Update

open OpticsAgent.Ecma OpticsAgent.Lib OpticsAgent.Node

/-- The package files by their paths. A file that is there may still not be read. -/
structure PackageFiles where
  existsSync : JsString → Bool
  readFileSync : JsString → Option JsString

/-- What is logged before `null` is returned. -/
inductive VersionError where
  | missingField (file : JsString)
  | unreadable (file : JsString)
  | notFound (directory : JsString)
deriving DecidableEq

def packageName : JsString := js "package.json"

/-- The version of the package file at a path. -/
def packageVersion (files : PackageFiles) (candidate : JsString) :
    Except VersionError JsValue :=
  match (files.readFileSync candidate).bind parseJson with
  | none => .error (.unreadable candidate)
  | some pkg =>
      match pkg.member (js "version") with
      | .error _ => .error (.unreadable candidate)
      | .ok version => if version.truthy then .ok version else .error (.missingField candidate)

/-- How far up a path can still go. -/
def depth (directory : JsString) : ℕ := if directory = [46] then 0 else directory.length + 1

theorem cut_lt (front : JsString) :
    ((front.dropWhile (· = 47)).dropWhile (· ≠ 47)).length = 0 ∨
      ((front.dropWhile (· = 47)).dropWhile (· ≠ 47)).length < front.length := by
  have hslashes := (List.dropWhile_sublist (· = 47) (l := front)).length_le
  cases hname : front.dropWhile (· = 47) with
  | nil => exact .inl rfl
  | cons unit rest =>
      refine .inr ?_
      have hunit : unit ≠ 47 := by
        have hhead := List.head_dropWhile_not (p := (· = 47)) (l := front) (by simp [hname])
        simpa [hname] using hhead
      have hrest := (List.dropWhile_sublist (· ≠ 47) (l := rest)).length_le
      rw [hname, List.length_cons] at hslashes
      rw [List.dropWhile_cons_of_pos (by simpa using hunit)]
      omega

theorem dirname_shorter (path : JsString) :
    Path.dirname path = [46] ∨ Path.dirname path = path ∨
      (Path.dirname path).length < path.length := by
  have hcut := cut_lt (path.drop 1).reverse
  rw [List.length_reverse, List.length_drop] at hcut
  unfold Path.dirname
  dsimp only
  generalize (((path.drop 1).reverse.dropWhile (· = 47)).dropWhile (· ≠ 47)).length = cut at hcut
  split_ifs with hempty hzero habsolute hslashes
  · exact .inl rfl
  · obtain ⟨rest, rfl⟩ : ∃ rest, path = 47 :: rest := by
      cases path with
      | nil => exact absurd rfl hempty
      | cons unit rest => exact ⟨rest, by simpa [Path.isAbsolute] using habsolute⟩
    cases rest with
    | nil => exact .inr (.inl rfl)
    | cons unit rest => exact .inr (.inr (by simp))
  · exact .inl rfl
  · obtain ⟨-, rfl⟩ := hslashes
    exact .inr (.inr (by simp only [List.length_cons, List.length_nil]; omega))
  · exact .inr (.inr (by rw [List.length_take]; omega))

/-- A parent that is another directory is nearer to where the search ends. -/
theorem depth_dirname {directory : JsString} (h : Path.dirname directory ≠ directory) :
    depth (Path.dirname directory) < depth directory := by
  have hhere : directory ≠ [46] := by
    rintro rfl
    exact h (by decide)
  rw [depth, depth, if_neg hhere]
  rcases dirname_shorter directory with hdot | hsame | hshorter
  · rw [if_pos hdot]
    exact Nat.succ_pos _
  · exact absurd hsame h
  · split_ifs
    · exact Nat.succ_pos _
    · exact Nat.succ_lt_succ hshorter

/-- The loop, with the directory it started from for the message. -/
def searchUpward (files : PackageFiles) (start directory : JsString) :
    Except VersionError JsValue :=
  let candidate := Path.join [directory, packageName]
  if files.existsSync candidate then packageVersion files candidate
  else if _h : Path.dirname directory = directory then .error (.notFound start)
  else searchUpward files start (Path.dirname directory)
termination_by depth directory
decreasing_by exact depth_dirname _h

def readAgentVersion (files : PackageFiles) (dirname : JsString) : Except VersionError JsValue :=
  searchUpward files dirname dirname

/-! ## Upward from an absolute path -/

open Path

/-- The absolute path of a place, given by the names from the root. -/
def absolute (names : List JsString) : JsString := 47 :: joinSegments names

def packagePath (place : List JsString) : JsString := absolute (place ++ [packageName])

theorem isName_packageName : IsName packageName := ⟨by decide, by decide, by decide, by decide⟩

theorem foldl_names {allowAboveRoot : Bool} {names : List JsString}
    (hnames : ∀ name ∈ names, IsName name) (done : List JsString) :
    names.foldl (pushSegment allowAboveRoot) done = names.reverse ++ done := by
  induction names generalizing done with
  | nil => rfl
  | cons name names ih =>
      obtain ⟨hname, hrest⟩ := List.forall_mem_cons.mp hnames
      rw [List.foldl_cons, pushSegment_name hname, ih hrest, List.reverse_cons, List.append_assoc]
      rfl

theorem normalizeString_absolute {names : List JsString} (hnames : ∀ name ∈ names, IsName name) :
    normalizeString (absolute names) false = names := by
  change (enter false [] (47 :: joinSegments names)).reverse = names
  rw [enter_slash, enter_joinSegments, foldl_enter_segments fun name hname =>
    .inl (hnames name hname), foldl_names hnames, List.append_nil, List.reverse_reverse]

theorem join_absolute {place : List JsString} (hplace : ∀ name ∈ place, IsName name) :
    join [absolute place, packageName] = packagePath place := by
  have habsolute : isAbsolute (absolute place) = true := rfl
  have hnonempty : absolute place ≠ [] := List.cons_ne_nil _ _
  rw [join_name isName_packageName hnonempty, if_pos habsolute,
    normalizeString_absolute hplace]
  rfl

theorem dirname_root : dirname (absolute []) = absolute [] := by decide

/-- Read from the back, a name is dropped up to the slash in front of it. -/
theorem dropWhile_name {name : JsString} (hname : IsName name) (front : JsString) :
    ((name.reverse ++ front).dropWhile (· = 47)).dropWhile (· ≠ 47) =
      front.dropWhile (· ≠ 47) := by
  have hslash : ∀ c ∈ name.reverse, c ≠ 47 := by
    rintro c hc rfl
    exact hname.noSlash (List.mem_reverse.mp hc)
  obtain ⟨unit, rest, hreversed⟩ := List.exists_cons_of_ne_nil (List.reverse_ne_nil_iff.mpr
    hname.nonempty)
  have hunit : unit ≠ 47 := hslash unit (hreversed ▸ List.mem_cons_self)
  have hkept : (name.reverse ++ front).dropWhile (· = 47) = name.reverse ++ front := by
    rw [hreversed]
    exact List.dropWhile_cons_of_neg (by simpa using hunit)
  rw [hkept]
  exact List.dropWhile_append_of_pos fun c hc => by simpa using hslash c hc

/-- The parent of a place is the place without its last name. -/
theorem dirname_absolute {names : List JsString} {last : JsString}
    (hnames : ∀ name ∈ names, IsName name) (hlast : IsName last) :
    dirname (absolute (names ++ [last])) = absolute names := by
  have habsolute : isAbsolute (absolute (names ++ [last])) = true := rfl
  have hpath : absolute (names ++ [last]) ≠ [] := List.cons_ne_nil _ _
  unfold dirname
  dsimp only
  rw [if_neg hpath, habsolute]
  by_cases hroot : names = []
  · have hname : ((absolute (names ++ [last])).drop 1).reverse = last.reverse ++ [] := by
      simp [hroot, absolute, joinSegments]
    rw [hname, dropWhile_name hlast, List.dropWhile_nil, if_pos List.length_nil, if_pos rfl, hroot]
    rfl
  · have hname : ((absolute (names ++ [last])).drop 1).reverse =
        last.reverse ++ 47 :: (joinSegments names).reverse := by
      simp [absolute, joinSegments, intercalate_append_singleton last hroot]
    have hlong : (joinSegments names).length ≠ 0 := by
      intro hzero
      have hsegments := normalizeString_absolute hnames
      rw [absolute, List.length_eq_zero_iff.mp hzero] at hsegments
      exact hroot hsegments.symm
    have hstop : (47 :: (joinSegments names).reverse).dropWhile (· ≠ 47) =
        47 :: (joinSegments names).reverse := by
      simp
    rw [hname, dropWhile_name hlast, hstop, List.length_cons, List.length_reverse,
      if_neg (Nat.succ_ne_zero _), if_neg (by simp [hlong])]
    simp [absolute, joinSegments, intercalate_append_singleton last hroot]

/-! ## The nearest package -/

/-- The nearest place with a package file, from `place` up to the root. -/
def nearestPackage (files : PackageFiles) (place : List JsString) : Option (List JsString) :=
  place.inits.reverse.find? fun above => files.existsSync (packagePath above)

theorem nearestPackage_nil (files : PackageFiles) :
    nearestPackage files [] = if files.existsSync (packagePath []) then some [] else none := by
  rw [nearestPackage, List.inits, List.reverse_singleton, List.find?_singleton]

theorem nearestPackage_concat (files : PackageFiles) (names : List JsString) (last : JsString) :
    nearestPackage files (names ++ [last]) =
      if files.existsSync (packagePath (names ++ [last])) then some (names ++ [last])
      else nearestPackage files names := by
  have hinits : (names ++ [last]).inits = names.inits ++ [names ++ [last]] := by
    rw [List.inits_append]
    rfl
  rw [nearestPackage, hinits, List.reverse_append, List.reverse_singleton, List.singleton_append,
    List.find?_cons]
  cases files.existsSync (packagePath (names ++ [last])) <;> rfl

/-- What the search from `start` says of the place whose package is the nearest. -/
def versionAt (files : PackageFiles) (start : JsString) :
    Option (List JsString) → Except VersionError JsValue
  | some place => packageVersion files (packagePath place)
  | none => .error (.notFound start)

theorem searchUpward_absolute (files : PackageFiles) (start : JsString) {names : List JsString}
    (hnames : ∀ name ∈ names, IsName name) :
    searchUpward files start (absolute names) =
      versionAt files start (nearestPackage files names) := by
  induction names using List.reverseRecOn with
  | nil =>
      have hcandidate : join [absolute [], packageName] = packagePath [] := join_absolute hnames
      rw [searchUpward, hcandidate, dif_pos dirname_root, nearestPackage_nil]
      split_ifs <;> rfl
  | append_singleton names last ih =>
      obtain ⟨hrest, hlast⟩ := List.forall_mem_append.mp hnames
      have hparent := dirname_absolute hrest (hlast last (List.mem_singleton.mpr rfl))
      have hup : dirname (absolute (names ++ [last])) ≠ absolute (names ++ [last]) := by
        intro hsame
        have hsegments := congrArg (normalizeString · false) (hparent.symm.trans hsame)
        rw [normalizeString_absolute hrest, normalizeString_absolute hnames] at hsegments
        simp at hsegments
      rw [searchUpward, join_absolute hnames, nearestPackage_concat, dif_neg hup, hparent, ih hrest]
      split_ifs <;> rfl

/-- From any directory, the package that counts is the nearest one on the way to the root. -/
theorem version_is_nearest (files : PackageFiles) {names : List JsString}
    (hnames : ∀ name ∈ names, IsName name) :
    readAgentVersion files (absolute names) =
      versionAt files (absolute names) (nearestPackage files names) :=
  searchUpward_absolute files (absolute names) hnames

/-- The code of an image, and the only package file of it. -/
def imagePackage : PackageFiles where
  existsSync path := path = js "/app/package.json"
  readFileSync path :=
    if path = js "/app/package.json" then some (js "\x7b\"version\":\"0.4.1\"\x7d") else none

theorem version_is_nearest_inImage :
    (packageVersion imagePackage (packagePath [js "app"])).toOption.map JsValue.toText =
        some (js "0.4.1") ∧
      readAgentVersion imagePackage (absolute [js "app", js "dist", js "src", js "global"]) =
        versionAt imagePackage (js "/app/dist/src/global") (some [js "app"]) := by
  have hnames : ∀ name ∈ [js "app", js "dist", js "src", js "global"], IsName name := by
    intro name hname
    fin_cases hname <;> exact ⟨by decide, by decide, by decide, by decide⟩
  have hnearest : nearestPackage imagePackage [js "app", js "dist", js "src", js "global"] =
      some [js "app"] := by
    decide +kernel
  have hfound := version_is_nearest imagePackage hnames
  rw [hnearest] at hfound
  exact ⟨by decide +kernel, hfound⟩

theorem nearestPackage_self {files : PackageFiles} {place : List JsString}
    (hpackage : files.existsSync (packagePath place) = true) :
    nearestPackage files place = some place := by
  rcases List.eq_nil_or_concat place with rfl | ⟨names, last, rfl⟩
  · rw [nearestPackage_nil, if_pos hpackage]
  · rw [List.concat_eq_append] at hpackage ⊢
    rw [nearestPackage_concat, if_pos hpackage]

theorem nearestPackage_below {files : PackageFiles} {place deeper : List JsString}
    (hpackage : files.existsSync (packagePath place) = true)
    (hnone : ∀ below, below ≠ [] → below <+: deeper →
      files.existsSync (packagePath (place ++ below)) = false) :
    nearestPackage files (place ++ deeper) = some place := by
  induction deeper using List.reverseRecOn with
  | nil =>
      rw [List.append_nil]
      exact nearestPackage_self hpackage
  | append_singleton deeper last ih =>
      rw [← List.append_assoc, nearestPackage_concat, List.append_assoc,
        hnone _ (by simp) (List.prefix_refl _), if_neg Bool.false_ne_true]
      exact ih fun below hbelow hfront =>
        hnone below hbelow (hfront.trans (List.prefix_append _ _))

/-- The code may move below its package: it still reports the same version. -/
theorem version_survives_move {files : PackageFiles} {place deeper : List JsString}
    (hnames : ∀ name ∈ place ++ deeper, IsName name)
    (hpackage : files.existsSync (packagePath place) = true)
    (hnone : ∀ below, below ≠ [] → below <+: deeper →
      files.existsSync (packagePath (place ++ below)) = false) :
    readAgentVersion files (absolute (place ++ deeper)) =
      readAgentVersion files (absolute place) := by
  obtain ⟨hplace, -⟩ := List.forall_mem_append.mp hnames
  rw [readAgentVersion, readAgentVersion, searchUpward_absolute files _ hnames,
    searchUpward_absolute files _ hplace, nearestPackage_below hpackage hnone,
    nearestPackage_self hpackage]
  rfl

end OpticsAgent.Update
