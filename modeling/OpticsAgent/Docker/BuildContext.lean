import Mathlib
import OpticsAgent.Docker.BuildWorkspace
import OpticsAgent.Node.FileSystem

/-!
Where the build context really is. `resolveBuildContext` compares the texts of
paths, and then the file system follows the links of the cloned tree.
-/

namespace OpticsAgent.Docker

open OpticsAgent.Ecma OpticsAgent.Node OpticsAgent.Lib Agent

/-! ## Below a directory, by name -/

/-- A target whose relative path does not go up is below the source. -/
theorem segments_below {cwd source target : JsString}
    (h : startsWith (Path.relative cwd source target) (js "..") = false) :
    Path.segments cwd target = Path.segments cwd source ++
      (Path.segments cwd target).drop (Path.segments cwd source).length := by
  obtain ⟨common, hsource, htarget⟩ :=
    Path.dropCommon_eq (Path.segments cwd source) (Path.segments cwd target)
  cases hup : (Path.dropCommon (Path.segments cwd source) (Path.segments cwd target)).1 with
  | nil =>
      rw [hup, List.append_nil] at hsource
      rw [hsource, htarget, List.drop_left]
  | cons name up =>
      exfalso
      have hrelative : startsWith (Path.relative cwd source target) (js "..") = true := by
        change startsWith (Path.joinSegments
          ((Path.dropCommon (Path.segments cwd source) (Path.segments cwd target)).1.map
            (fun _ => [46, 46]) ++
          (Path.dropCommon (Path.segments cwd source) (Path.segments cwd target)).2)) _ = true
        rw [hup, List.map_cons, List.cons_append, startsWith_iff]
        exact Path.joinSegments_eq_append _ _
      rw [hrelative] at h
      cases h

/-! ## The context -/

variable {W : Type}

/-- A host whose file system is this one. -/
def onTree (fs : FileSystem) (cwd : JsString) (other : Host W) : Host W
  | .existsSync path, world => ((fs.locate cwd path).isSome, world)
  | .isDirectory path, world =>
      (match fs.locate cwd path with
        | some place => .ok (fs.isDirectory place)
        | none => .error (.error (about (js "ENOENT: no such file or directory, stat ") path [])),
        world)
  | c, world => other c world

/-- The path is really `directory` or below it. -/
def ReallyInside (fs : FileSystem) (cwd : JsString) (directory : List JsString)
    (path : JsString) : Prop :=
  ∃ place, fs.locate cwd path = some place ∧ directory <+: place

/-- No root directory is asked for. -/
def AsksForNone (rootDirectory : Option JsString) : Prop :=
  trim (rootDirectory.getD []) = [] ∨ trim (rootDirectory.getD []) = js "."

instance (rootDirectory : Option JsString) : Decidable (AsksForNone rootDirectory) :=
  inferInstanceAs (Decidable (_ ∨ _))

variable (settings : Settings)

/-- The names of the root directory below the base directory. -/
def namesBelow (baseDir : JsString) (rootDirectory : Option JsString) : List JsString :=
  (Path.segments settings.cwd
    (Path.resolve settings.cwd baseDir (trim (rootDirectory.getD [])))).drop
      (Path.segments settings.cwd baseDir).length

/-- The links of the tree do not lead the root directory out of the clone. Without
links below it the base directory is to be where its text says; behind the
last link the names that are left stay where it leads. -/
def LinksStay (fs : FileSystem) (baseDir : JsString) (names clone : List JsString) : Prop :=
  (fs.LinkFree (Path.segments settings.cwd baseDir) names ∧
    ∃ base, fs.real (Path.segments settings.cwd baseDir) = some base ∧ clone <+: base ++ names) ∨
  ∃ place rest, fs.LastLink (Path.segments settings.cwd baseDir) names place rest ∧
    clone <+: place ++ rest

/-- The directory test throws or lets the path through. -/
theorem eq_of_isDirectory {host : Host W} {s : Session W} {resolved directory message : JsString}
    (h : (Session.run host (do
      if ← await (← call (.isDirectory resolved)) then pure resolved
      else throw (JsError.error message)) s).1 = .ok directory) : directory = resolved := by
  rw [Session.run, call, Program.run_bind, Program.run_ask, Program.after_ok] at h
  cases hreply : (Session.perform host (.call (.isDirectory resolved)) s).1 with
  | error e =>
      rw [hreply] at h
      cases h
  | ok isDirectory =>
      rw [hreply] at h
      cases isDirectory with
      | false => cases h
      | true => exact (Except.ok.inj h).symm

theorem run_resolveBuildContext {host : Host W} {s : Session W} {baseDir : JsString}
    {rootDirectory : Option JsString} {directory : JsString}
    (h : (Session.run host (resolveBuildContext settings baseDir rootDirectory) s).1 =
      .ok directory) :
    (AsksForNone rootDirectory ∧ directory = baseDir) ∨
    (¬ AsksForNone rootDirectory ∧
      directory = Path.resolve settings.cwd baseDir (trim (rootDirectory.getD [])) ∧
      startsWith (Path.relative settings.cwd baseDir directory) (js "..") = false ∧
      (host (.existsSync directory) s.world).1 = true) := by
  unfold resolveBuildContext at h
  dsimp only at h
  split_ifs at h with hnone hgoes
  · left
    exact ⟨hnone, (Except.ok.inj h).symm⟩
  · cases h
  · right
    obtain ⟨hbelow, -⟩ := Bool.or_eq_false_iff.mp (Bool.not_eq_true _ ▸ hgoes)
    rw [Session.run, call, Program.run_bind, Program.run_ask, Program.after_ok] at h
    split_ifs at h with hfound
    · have hresolved : directory = _ := eq_of_isDirectory h
      subst hresolved
      exact ⟨hnone, rfl, hbelow, hfound⟩
    · cases h

theorem reallyInside_resolve_iff {fs : FileSystem} {baseDir path : JsString}
    {clone place : List JsString}
    (hbelow : startsWith (Path.relative settings.cwd baseDir
      (Path.resolve settings.cwd baseDir path)) (js "..") = false)
    (hplace : fs.locate settings.cwd (Path.resolve settings.cwd baseDir path) = some place) :
    clone <+: place ↔ LinksStay settings fs baseDir
      ((Path.segments settings.cwd (Path.resolve settings.cwd baseDir path)).drop
        (Path.segments settings.cwd baseDir).length) clone := by
  have hsegments := segments_below hbelow
  have hnames : ∀ name ∈ Path.segments settings.cwd (Path.resolve settings.cwd baseDir path),
      Path.IsName name := Path.isName_normalizeString _
  have hreal : fs.real (Path.segments settings.cwd (Path.resolve settings.cwd baseDir path)) =
      some place := by
    rw [Path.resolve_eq] at hplace
    exact FileSystem.real_joinSegments (fun name hname => (hnames name hname).noSlash) hplace
  generalize Path.segments settings.cwd (Path.resolve settings.cwd baseDir path) = whole at *
  generalize whole.drop (Path.segments settings.cwd baseDir).length = names at *
  subst hsegments
  have hdown : ∀ name ∈ names, Path.IsName name := by
    intro name hname
    exact hnames name (List.mem_append_right _ hname)
  constructor
  · intro hinside
    rcases FileSystem.linkFree_or_lastLink hreal with hfree | ⟨target, rest, hlast⟩
    · obtain ⟨base, hbase, rfl⟩ := FileSystem.real_linkFree hdown hfree hreal
      exact .inl ⟨hfree, base, hbase, hinside⟩
    · rw [FileSystem.real_lastLink hdown hlast hreal] at hinside
      exact .inr ⟨target, rest, hlast, hinside⟩
  · rintro (⟨hfree, base, hbase, hinside⟩ | ⟨target, rest, hlast, hinside⟩)
    · obtain ⟨start, hstart, rfl⟩ := FileSystem.real_linkFree hdown hfree hreal
      rw [hstart] at hbase
      rwa [Option.some.inj hbase]
    · rwa [FileSystem.real_lastLink hdown hlast hreal]

/-- A tree without links below a base directory whose text does not go up keeps
every root directory in the clone. -/
theorem linksStay_of_linkFree {fs : FileSystem} {baseDir : JsString} {names clone : List JsString}
    (habsolute : Path.isAbsolute baseDir = true) (hup : js ".." ∉ splitUnit 47 baseDir)
    (hclone : fs.locate settings.cwd baseDir = some clone)
    (hfree : fs.LinkFree (Path.segments settings.cwd baseDir) names) :
    LinksStay settings fs baseDir names clone := by
  left
  refine ⟨hfree, clone, ?_, List.prefix_append clone names⟩
  exact FileSystem.real_segments habsolute hup hclone

/-- A returned build context is really in the clone exactly when no root
directory is asked for or the links of the tree stay in the clone. -/
theorem build_context_stays_iff {fs : FileSystem} {other : Host W} {s : Session W}
    {baseDir : JsString} {rootDirectory : Option JsString} {directory : JsString}
    {clone : List JsString} (habsolute : Path.isAbsolute baseDir = true)
    (hclone : fs.locate settings.cwd baseDir = some clone)
    (h : (Session.run (onTree fs settings.cwd other)
      (resolveBuildContext settings baseDir rootDirectory) s).1 = .ok directory) :
    ReallyInside fs settings.cwd clone directory ↔
      AsksForNone rootDirectory ∨
        LinksStay settings fs baseDir (namesBelow settings baseDir rootDirectory) clone := by
  rcases run_resolveBuildContext settings h with
    ⟨hnone, rfl⟩ | ⟨hasks, rfl, hbelow, hexists⟩
  · constructor
    · exact fun _ => .inl hnone
    · exact fun _ => ⟨clone, hclone, List.prefix_refl clone⟩
  · obtain ⟨place, hplace⟩ := Option.isSome_iff_exists.mp hexists
    have hiff : clone <+: place ↔ _ := reallyInside_resolve_iff settings hbelow hplace
    constructor
    · rintro ⟨found, hfound, hinside⟩
      rw [hplace] at hfound
      rw [← Option.some.inj hfound] at hinside
      exact .inr (hiff.mp hinside)
    · rintro (hnone | hlinks)
      · exact absurd hnone hasks
      · exact ⟨place, hplace, hiff.mpr hlinks⟩

/-- A clone in `/data/build/app` with a link `docs` to its directory `site` and a
link `src` to `/etc`. -/
def linkedTree : FileSystem where
  maxLinks := 40
  entry place :=
    if place = [js "data", js "build", js "app", js "docs"] then some (.link (js "site"))
    else if place = [js "data", js "build", js "app", js "src"] then some (.link (js "/etc"))
    else if place ∈ [[js "data"], [js "data", js "build"], [js "data", js "build", js "app"],
        [js "data", js "build", js "app", js "site"], [js "etc"]] then some .directory
    else none

/-- The context `resolveBuildContext` gives for a root directory of that clone. -/
def contextOfLinked (rootDirectory : String) : Except JsError JsString :=
  (Session.run (onTree linkedTree hostSettings.cwd bareHost)
    (resolveBuildContext hostSettings (js "/data/build/app") (some (js rootDirectory)))
    { world := () }).1

theorem build_context_stays_iff_inner_link :
    ReallyInside linkedTree hostSettings.cwd [js "data", js "build", js "app"]
        (js "/data/build/app/docs") ↔
      AsksForNone (some (js "docs")) ∨
        LinksStay hostSettings linkedTree (js "/data/build/app")
          (namesBelow hostSettings (js "/data/build/app") (some (js "docs")))
          [js "data", js "build", js "app"] := by
  have habsolute : Path.isAbsolute (js "/data/build/app") = true := by decide
  have hclone : linkedTree.locate hostSettings.cwd (js "/data/build/app") =
      some [js "data", js "build", js "app"] := by
    decide +kernel
  have hcontext : contextOfLinked "docs" = .ok (js "/data/build/app/docs") := by
    decide +kernel
  exact build_context_stays_iff hostSettings habsolute hclone hcontext

/-- The link `src` takes the context to `/etc`. -/
theorem build_context_stays_fails :
    contextOfLinked "src" = .ok (js "/data/build/app/src") ∧
      linkedTree.locate hostSettings.cwd (js "/data/build/app") =
        some [js "data", js "build", js "app"] ∧
      ¬ ReallyInside linkedTree hostSettings.cwd [js "data", js "build", js "app"]
        (js "/data/build/app/src") := by
  refine ⟨by decide +kernel, by decide +kernel, ?_⟩
  have hplace : linkedTree.locate hostSettings.cwd (js "/data/build/app/src") =
      some [js "etc"] := by
    decide +kernel
  rintro ⟨place, hfound, hinside⟩
  rw [hplace] at hfound
  rw [← Option.some.inj hfound] at hinside
  revert hinside
  decide

end OpticsAgent.Docker
