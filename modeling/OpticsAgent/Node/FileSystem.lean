import Mathlib
import OpticsAgent.Node.Path

/-!
Where a path really is. The file system follows the names of a path one after
the other, and a symbolic link on the way puts the names of its target in front
of those that are left. `..` goes up from where the walk is by then, not from
where the text of the path seems to be.
-/

namespace OpticsAgent.Node

open OpticsAgent.Ecma

inductive Entry where
  | file
  | directory
  | link (target : JsString)
deriving DecidableEq

/-- The entries by their real location, the names from the root. An entry below
something that is not a directory is never reached. No walk follows more than
`maxLinks` links. -/
structure FileSystem where
  entry : List JsString → Option Entry
  maxLinks : ℕ

namespace FileSystem

variable (fs : FileSystem)

/-- The names followed from a place, with the links that may still be followed.
The root is a directory whatever `entry` says of it. -/
def walkNames (follow : List JsString → List JsString → Option (ℕ × List JsString)) (left : ℕ) :
    List JsString → List JsString → Option (ℕ × List JsString)
  | place, [] => some (left, place)
  | place, name :: rest =>
      if name = [] ∨ name = [46] then walkNames follow left place rest
      else if name = [46, 46] then walkNames follow left place.dropLast rest
      else
        match fs.entry (place ++ [name]) with
        | none => none
        | some .file => if rest = [] then some (left, place ++ [name]) else none
        | some .directory => walkNames follow left (place ++ [name]) rest
        | some (.link target) =>
            follow (if Path.isAbsolute target then [] else place) (splitUnit 47 target ++ rest)

/-- Where the names lead from a place, and how many links may be followed then. -/
def walk : ℕ → List JsString → List JsString → Option (ℕ × List JsString)
  | 0 => fs.walkNames (fun _ _ => none) 0
  | left + 1 => fs.walkNames (walk left) (left + 1)

/-- Where the names lead from the root. -/
def real (names : List JsString) : Option (List JsString) :=
  (fs.walk fs.maxLinks [] names).map Prod.snd

/-- The real location of a path. -/
def locate (cwd path : JsString) : Option (List JsString) :=
  if path = [] then none
  else fs.real (splitUnit 47 (if Path.isAbsolute path then path else cwd ++ 47 :: path))

def isDirectory (place : List JsString) : Bool :=
  place = [] || fs.entry place = some .directory

/-! ## Walks -/

variable {fs} {left : ℕ} {place names : List JsString} {name : JsString}
variable {follow : List JsString → List JsString → Option (ℕ × List JsString)}

/-- What the links lead to, with one more that may be followed. -/
def nextLinks (fs : FileSystem) : ℕ → List JsString → List JsString → Option (ℕ × List JsString)
  | 0 => fun _ _ => none
  | left + 1 => fs.walk left

theorem walk_eq (left : ℕ) : fs.walk left = fs.walkNames (fs.nextLinks left) left := by
  cases left <;> rfl

theorem walkNames_stay (h : name = [] ∨ name = [46]) :
    fs.walkNames follow left place (name :: names) = fs.walkNames follow left place names := by
  rw [walkNames, if_pos h]

theorem walkNames_up :
    fs.walkNames follow left place ([46, 46] :: names) =
      fs.walkNames follow left place.dropLast names := by
  rw [walkNames, if_neg (by decide), if_pos rfl]

/-- A name neither to stay nor to go up is a file at the end, a directory that
is entered, or a link that is followed. -/
theorem walkNames_name (hstay : ¬ (name = [] ∨ name = [46])) (hup : name ≠ [46, 46])
    {reached : ℕ × List JsString} :
    fs.walkNames follow left place (name :: names) = some reached ↔
      (fs.entry (place ++ [name]) = some .file ∧ names = [] ∧ (left, place ++ [name]) = reached) ∨
      (fs.entry (place ++ [name]) = some .directory ∧
        fs.walkNames follow left (place ++ [name]) names = some reached) ∨
      ∃ target, fs.entry (place ++ [name]) = some (.link target) ∧
        follow (if Path.isAbsolute target then [] else place) (splitUnit 47 target ++ names) =
          some reached := by
  rw [walkNames, if_neg hstay, if_neg hup]
  cases hentry : fs.entry (place ++ [name]) with
  | none => simp
  | some entry => cases entry <;> simp

/-- A walk of two parts has a walk of its first part, and goes on from its end. -/
def Splits (walk : List JsString → List JsString → Option (ℕ × List JsString))
    (onward : ℕ → List JsString → List JsString → Option (ℕ × List JsString)) : Prop :=
  ∀ place front back reached, walk place (front ++ back) = some reached →
    ∃ mid, walk place front = some mid ∧ onward mid.1 mid.2 back = some reached

theorem splits_walkNames (hfollow : Splits follow fs.walk)
    (hwalk : fs.walk left = fs.walkNames follow left) :
    Splits (fs.walkNames follow left) fs.walk := by
  intro place front back reached h
  induction front generalizing place with
  | nil =>
      refine ⟨(left, place), rfl, ?_⟩
      rw [hwalk]
      exact h
  | cons name rest ih =>
      rw [List.cons_append] at h
      by_cases hstay : name = [] ∨ name = [46]
      · rw [walkNames_stay hstay] at h ⊢
        exact ih place h
      by_cases hup : name = [46, 46]
      · subst hup
        rw [walkNames_up] at h ⊢
        exact ih _ h
      rcases (walkNames_name hstay hup).mp h with
        ⟨hfile, hnone, hreached⟩ | ⟨hdirectory, hrest⟩ | ⟨target, hlink, hrest⟩
      · -- Nothing can follow a file, so the second part is empty.
        obtain ⟨rfl, rfl⟩ := List.append_eq_nil_iff.mp hnone
        refine ⟨reached, ?_, ?_⟩
        · exact (walkNames_name hstay hup).mpr (.inl ⟨hfile, rfl, hreached⟩)
        · rw [← hreached, hwalk]
          rfl
      · obtain ⟨mid, hfront, hback⟩ := ih _ hrest
        exact ⟨mid, (walkNames_name hstay hup).mpr (.inr (.inl ⟨hdirectory, hfront⟩)), hback⟩
      · rw [← List.append_assoc] at hrest
        obtain ⟨mid, hfront, hback⟩ := hfollow _ _ _ _ hrest
        exact ⟨mid, (walkNames_name hstay hup).mpr (.inr (.inr ⟨target, hlink, hfront⟩)), hback⟩

theorem splits_walk (left : ℕ) : Splits (fs.walk left) fs.walk := by
  induction left with
  | zero =>
      apply splits_walkNames _ rfl
      intro place front back reached h
      cases h
  | succ left ih => exact splits_walkNames ih rfl

theorem walk_append {front back reached} (h : fs.walk left place (front ++ back) = some reached) :
    ∃ mid, fs.walk left place front = some mid ∧ fs.walk mid.1 mid.2 back = some reached :=
  splits_walk left place front back reached h

/-! ## Parts that lead nowhere -/

/-- `names` without some of its empty parts and its `.`. -/
inductive Thinned : List JsString → List JsString → Prop
  | nil : Thinned [] []
  | keep (name : JsString) {names thin : List JsString} (rest : Thinned names thin) :
      Thinned (name :: names) (name :: thin)
  | drop {name : JsString} (stay : name = [] ∨ name = [46]) {names thin : List JsString}
      (rest : Thinned names thin) : Thinned (name :: names) thin

theorem Thinned.refl (names : List JsString) : Thinned names names := by
  induction names with
  | nil => exact .nil
  | cons name names ih => exact .keep name ih

theorem Thinned.append_left (front : List JsString) {thin : List JsString}
    (h : Thinned names thin) : Thinned (front ++ names) (front ++ thin) := by
  induction front with
  | nil => exact h
  | cons name front ih => exact .keep name ih

/-- A walk that gets to its end gets there without the parts that lead nowhere. -/
def Thins (walk : List JsString → List JsString → Option (ℕ × List JsString)) : Prop :=
  ∀ place names thin reached, Thinned names thin →
    walk place names = some reached → walk place thin = some reached

theorem thins_walkNames (hfollow : Thins follow) : Thins (fs.walkNames follow left) := by
  intro place names thin reached hthin h
  induction hthin generalizing place with
  | nil => exact h
  | drop hstay _ ih =>
      rw [walkNames_stay hstay] at h
      exact ih place h
  | keep name hrest ih =>
      by_cases hstay : name = [] ∨ name = [46]
      · rw [walkNames_stay hstay] at h ⊢
        exact ih place h
      by_cases hup : name = [46, 46]
      · subst hup
        rw [walkNames_up] at h ⊢
        exact ih _ h
      rw [walkNames_name hstay hup] at h ⊢
      rcases h with ⟨hfile, hnone, hreached⟩ | ⟨hdirectory, h⟩ | ⟨target, hlink, h⟩
      · subst hnone
        cases hrest
        exact .inl ⟨hfile, rfl, hreached⟩
      · exact .inr (.inl ⟨hdirectory, ih _ h⟩)
      · exact .inr (.inr ⟨target, hlink, hfollow _ _ _ _ (hrest.append_left _) h⟩)

theorem thins_walk (left : ℕ) : Thins (fs.walk left) := by
  induction left with
  | zero =>
      apply thins_walkNames
      intro place names thin reached _ h
      cases h
  | succ left ih => exact thins_walkNames ih

theorem real_thinned {thin place} (hthin : Thinned names thin) (h : fs.real names = some place) :
    fs.real thin = some place := by
  obtain ⟨reached, hwalk, rfl⟩ := Option.map_eq_some_iff.mp h
  rw [real, thins_walk _ _ _ _ _ hthin hwalk]
  rfl

/-! ## Links on the way -/

/-- The entry of this name in the directory the names lead to is a link. -/
def LinkAt (fs : FileSystem) (names : List JsString) (name : JsString) : Prop :=
  ∃ reached target, fs.walk fs.maxLinks [] names = some reached ∧
    fs.entry (reached.2 ++ [name]) = some (.link target)

/-- No name after `base` is that of a link. -/
def LinkFree (fs : FileSystem) (base names : List JsString) : Prop :=
  ∀ front name rest, names = front ++ name :: rest → ¬ fs.LinkAt (base ++ front) name

/-- The last link after `base` leads to `place`, and `rest` is still to go. -/
def LastLink (fs : FileSystem) (base names place rest : List JsString) : Prop :=
  ∃ front name, names = front ++ name :: rest ∧ fs.LinkAt (base ++ front) name ∧
    fs.LinkFree (base ++ front ++ [name]) rest ∧ fs.real (base ++ front ++ [name]) = some place

theorem linkFree_nil (base : List JsString) : fs.LinkFree base [] := by
  intro front name rest hnames
  simp at hnames

theorem LinkFree.tail {base : List JsString} (h : fs.LinkFree base (name :: names)) :
    fs.LinkFree (base ++ [name]) names := by
  rintro front next rest rfl hlink
  apply h (name :: front) next rest rfl
  rwa [List.append_assoc] at hlink

theorem LinkFree.head {base : List JsString} (h : fs.LinkFree base (name :: names)) :
    ¬ fs.LinkAt base name := by
  intro hlink
  apply h [] name names rfl
  rwa [List.append_nil]

/-- Without links a walk ends where the names say. -/
theorem walk_linkFree {base : List JsString} (hnames : ∀ name ∈ names, Path.IsName name)
    (hfree : fs.LinkFree base names) {reached : ℕ × List JsString}
    (h : fs.walk fs.maxLinks [] (base ++ names) = some reached) :
    ∃ mid, fs.walk fs.maxLinks [] base = some mid ∧ reached = (mid.1, mid.2 ++ names) := by
  induction names generalizing base with
  | nil =>
      rw [List.append_nil] at h
      exact ⟨reached, h, by rw [List.append_nil]⟩
  | cons name names ih =>
      obtain ⟨hname, hnames⟩ := List.forall_mem_cons.mp hnames
      rw [← List.singleton_append, ← List.append_assoc] at h
      obtain ⟨entered, hentered, hreached⟩ := ih hnames hfree.tail h
      obtain ⟨mid, hmid, hstep⟩ := walk_append hentered
      have hlast : entered = (mid.1, mid.2 ++ [name]) := by
        rw [walk_eq, walkNames_name (not_or.mpr ⟨hname.nonempty, hname.notHere⟩) hname.notUp]
          at hstep
        rcases hstep with ⟨-, -, hfile⟩ | ⟨-, hdirectory⟩ | ⟨target, hlink, -⟩
        · exact hfile.symm
        · exact (Option.some.inj hdirectory).symm
        · exact absurd ⟨mid, target, hmid, hlink⟩ hfree.head
      refine ⟨mid, hmid, ?_⟩
      rw [hreached, hlast, List.append_assoc, List.singleton_append]

theorem real_linkFree {base place : List JsString} (hnames : ∀ name ∈ names, Path.IsName name)
    (hfree : fs.LinkFree base names) (h : fs.real (base ++ names) = some place) :
    ∃ start, fs.real base = some start ∧ place = start ++ names := by
  obtain ⟨reached, hwalk, rfl⟩ := Option.map_eq_some_iff.mp h
  obtain ⟨mid, hmid, rfl⟩ := walk_linkFree hnames hfree hwalk
  refine ⟨mid.2, ?_, rfl⟩
  rw [real, hmid]
  rfl

theorem real_lastLink {base place target rest : List JsString}
    (hnames : ∀ name ∈ names, Path.IsName name) (hlast : fs.LastLink base names target rest)
    (h : fs.real (base ++ names) = some place) : place = target ++ rest := by
  obtain ⟨front, name, rfl, -, hfree, htarget⟩ := hlast
  rw [← List.singleton_append, ← List.append_assoc, ← List.append_assoc] at h
  have hrest : ∀ next ∈ rest, Path.IsName next := by
    intro next hnext
    exact hnames next (List.mem_append_right _ (List.mem_cons_of_mem _ hnext))
  obtain ⟨start, hstart, hplace⟩ := real_linkFree hrest hfree h
  rw [hstart] at htarget
  rw [hplace, Option.some.inj htarget]

theorem linkFree_or_link (fs : FileSystem) (base names : List JsString) :
    fs.LinkFree base names ∨ ∃ front name rest, names = front ++ name :: rest ∧
      fs.LinkAt (base ++ front) name ∧ fs.LinkFree (base ++ front ++ [name]) rest := by
  induction names generalizing base with
  | nil => exact .inl (linkFree_nil base)
  | cons name names ih =>
      rcases ih (base ++ [name]) with hfree | ⟨front, next, rest, rfl, hlink, hfree⟩
      · by_cases hlink : fs.LinkAt base name
        · refine .inr ⟨[], name, names, rfl, ?_, ?_⟩
          · rwa [List.append_nil]
          · rwa [List.append_nil]
        · left
          intro front next rest hnames hnext
          cases front with
          | nil =>
              obtain ⟨rfl, -⟩ := List.cons.inj hnames
              rw [List.append_nil] at hnext
              exact hlink hnext
          | cons first front =>
              obtain ⟨rfl, hrest⟩ := List.cons.inj hnames
              apply hfree front next rest hrest
              rwa [List.append_assoc]
      · have hfront : base ++ [name] ++ front = base ++ name :: front := by
          rw [List.append_assoc, List.singleton_append]
        rw [hfront] at hlink hfree
        exact .inr ⟨name :: front, next, rest, rfl, hlink, hfree⟩

/-- Either no link is met after `base`, or there is a last one. -/
theorem linkFree_or_lastLink {base names place : List JsString}
    (h : fs.real (base ++ names) = some place) :
    fs.LinkFree base names ∨ ∃ target rest, fs.LastLink base names target rest := by
  rcases linkFree_or_link fs base names with hfree | ⟨front, name, rest, rfl, hlink, hfree⟩
  · exact .inl hfree
  · right
    obtain ⟨reached, hwalk, -⟩ := Option.map_eq_some_iff.mp h
    rw [← List.singleton_append, ← List.append_assoc, ← List.append_assoc] at hwalk
    obtain ⟨mid, hmid, -⟩ := walk_append hwalk
    refine ⟨mid.2, rest, front, name, rfl, hlink, hfree, ?_⟩
    rw [real, hmid]
    rfl

/-! ## Locations of normalized paths -/

theorem thinned_enter {parts : List JsString} (hup : [46, 46] ∉ parts) (done : List JsString) :
    ∃ thin, Thinned parts thin ∧
      parts.foldl (Path.pushSegment false) done = thin.reverse ++ done := by
  induction parts generalizing done with
  | nil => exact ⟨[], .nil, rfl⟩
  | cons part parts ih =>
      obtain ⟨hpart, hparts⟩ := not_or.mp (List.mem_cons.not.mp hup)
      by_cases hstay : part = [] ∨ part = [46]
      · obtain ⟨thin, hthin, hdone⟩ := ih hparts done
        refine ⟨thin, .drop hstay hthin, ?_⟩
        rw [List.foldl_cons, Path.pushSegment_stay hstay, hdone]
      · obtain ⟨thin, hthin, hdone⟩ := ih hparts (part :: done)
        have hpush : Path.pushSegment false done part = part :: done := by
          rw [Path.pushSegment.eq_def, if_neg hstay, if_neg (Ne.symm hpart)]
        refine ⟨part :: thin, .keep part hthin, ?_⟩
        rw [List.foldl_cons, hpush, hdone, List.reverse_cons, List.append_assoc]
        rfl

/-- An absolute path without `..` is where its segments lead. -/
theorem real_segments {cwd path : JsString} {place : List JsString}
    (habsolute : Path.isAbsolute path = true) (hup : [46, 46] ∉ splitUnit 47 path)
    (h : fs.locate cwd path = some place) :
    fs.real (Path.segments cwd path) = some place := by
  have hempty : path ≠ [] := by
    rintro rfl
    cases habsolute
  obtain ⟨thin, hthin, hdone⟩ := thinned_enter hup []
  have hsegments : Path.segments cwd path = thin := by
    rw [Path.segments_eq, if_pos habsolute, Path.enter, hdone, List.append_nil,
      List.reverse_reverse]
  rw [locate, if_neg hempty, if_pos habsolute] at h
  rw [hsegments]
  exact real_thinned hthin h

/-- Names joined to an absolute path lead where they say. -/
theorem real_joinSegments {cwd : JsString} {place : List JsString}
    (hslash : ∀ name ∈ names, 47 ∉ name)
    (h : fs.locate cwd (47 :: Path.joinSegments names) = some place) :
    fs.real names = some place := by
  have hparts : Thinned (splitUnit 47 (47 :: Path.joinSegments names)) names := by
    rw [splitUnit, if_pos rfl]
    apply Thinned.drop (.inl rfl)
    by_cases hnone : names = []
    · subst hnone
      exact .drop (.inl rfl) .nil
    · rw [Path.joinSegments, splitUnit_intercalate hnone hslash]
      exact .refl names
  have habsolute : Path.isAbsolute (47 :: Path.joinSegments names) = true := rfl
  rw [locate, if_neg (List.cons_ne_nil _ _), if_pos habsolute] at h
  exact real_thinned hparts h

end FileSystem

end OpticsAgent.Node
