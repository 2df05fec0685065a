import Mathlib
import OpticsAgent.Ecma.Split

/-!
The functions of Node's `path` module the agent uses, for POSIX paths. A path is
read as a walk: each segment stays, leaves or enters a directory. Normalizing a
path first does not change where a walk along it ends.
-/

namespace OpticsAgent.Node.Path

open OpticsAgent.Ecma

def isAbsolute (path : JsString) : Bool := path.head? = some 47

/-- The segments of a path with `.` and `..` resolved, last segment first. -/
def pushSegment (allowAboveRoot : Bool) (done : List JsString) (segment : JsString) :
    List JsString :=
  if segment = [] ∨ segment = [46] then done
  else if segment = [46, 46] then
    match done with
    | [] => if allowAboveRoot then [segment] else []
    | last :: rest =>
        if last ≠ [46, 46] then rest
        else if allowAboveRoot then segment :: done
        else done
  else segment :: done

def normalizeString (path : JsString) (allowAboveRoot : Bool) : List JsString :=
  ((splitUnit 47 path).foldl (pushSegment allowAboveRoot) []).reverse

/-- `segments.join('/')`. -/
def joinSegments (segments : List JsString) : JsString := [47].intercalate segments

def normalize (path : JsString) : JsString :=
  if path = [] then [46]
  else
    let body := joinSegments (normalizeString path (!isAbsolute path))
    let trailing := path.getLast? = some 47
    if body = [] then
      if isAbsolute path then [47] else if trailing then [46, 47] else [46]
    else
      let closed := if trailing then body ++ [47] else body
      if isAbsolute path then 47 :: closed else closed

def join (parts : List JsString) : JsString :=
  let present := parts.filter fun part => part ≠ []
  if present = [] then [46] else normalize (joinSegments present)

/-- `path.resolve(base, path)`, with `cwd` before a relative base. -/
def resolve (cwd base path : JsString) : JsString :=
  let parts := if isAbsolute path then [path] else if isAbsolute base then [base, path]
    else [cwd, base, path]
  47 :: joinSegments (normalizeString (joinSegments (parts.filter fun part => part ≠ [])) false)

/-- What is left of two lists behind their common front. -/
def dropCommon : List JsString → List JsString → List JsString × List JsString
  | x :: xs, y :: ys => if x = y then dropCommon xs ys else (x :: xs, y :: ys)
  | xs, ys => (xs, ys)

def relative (cwd source target : JsString) : JsString :=
  let segments (path : JsString) := normalizeString (resolve cwd [] path) false
  let (up, down) := dropCommon (segments source) (segments target)
  joinSegments (up.map (fun _ => [46, 46]) ++ down)

def dirname (path : JsString) : JsString :=
  let front := (path.drop 1).reverse.dropWhile (· = 47)
  let cut := (front.dropWhile (· ≠ 47)).length
  if path = [] then [46]
  else if cut = 0 then (if isAbsolute path then [47] else [46])
  else if isAbsolute path ∧ cut = 1 then [47, 47]
  else path.take cut

example : join [js "/data/build", js "my-app", js "../docker-compose.yml"] =
    js "/data/build/docker-compose.yml" := by
  decide +kernel

example : relative (js "/") (js "/data/build") (js "/data/builds/x") = js "../builds/x" := by
  decide +kernel

/-! ## Walks -/

/-- A walk along the path, from a directory given by its segments, last first. -/
def enter (allowAboveRoot : Bool) (done : List JsString) (path : JsString) : List JsString :=
  (splitUnit 47 path).foldl (pushSegment allowAboveRoot) done

/-- The directories on the way from the root to the path. -/
def segments (cwd path : JsString) : List JsString :=
  normalizeString (resolve cwd [] path) false

/-- A file or directory name, not a way to stay or to go up. -/
structure IsName (name : JsString) : Prop where
  nonempty : name ≠ []
  noSlash : 47 ∉ name
  notHere : name ≠ [46]
  notUp : name ≠ [46, 46]

/-- A segment of a normalized path. -/
def IsSegment (segment : JsString) : Prop := IsName segment ∨ segment = [46, 46]

variable {allowAboveRoot : Bool} {done : List JsString}

theorem pushSegment_name {name : JsString} (h : IsName name) :
    pushSegment allowAboveRoot done name = name :: done := by
  simp [pushSegment, h.nonempty, h.notHere, h.notUp]

theorem enter_nil : enter allowAboveRoot done [] = done := by
  simp [enter, splitUnit, pushSegment]

theorem enter_slash (path : JsString) :
    enter allowAboveRoot done (47 :: path) = enter allowAboveRoot done path := by
  simp [enter, splitUnit, pushSegment]

theorem enter_append (a b : JsString) :
    enter allowAboveRoot done (a ++ 47 :: b) =
      enter allowAboveRoot (enter allowAboveRoot done a) b := by
  rw [enter, splitUnit_append, List.foldl_append]
  rfl

theorem enter_segment {segment : JsString} (h : IsSegment segment) :
    enter allowAboveRoot done segment = pushSegment allowAboveRoot done segment := by
  have hslash : 47 ∉ segment := by
    rcases h with hname | rfl
    · exact hname.noSlash
    · decide
  rw [enter, splitUnit_of_not_mem hslash]
  rfl

/-- Joined parts are walked one after the other; an empty one leads nowhere. -/
theorem enter_joinSegments (parts : List JsString) (done : List JsString) :
    enter allowAboveRoot done (joinSegments parts) = parts.foldl (enter allowAboveRoot) done := by
  induction parts generalizing done with
  | nil => exact enter_nil
  | cons part parts ih =>
      cases parts with
      | nil => simp [joinSegments]
      | cons next parts =>
          have hjoin : joinSegments (part :: next :: parts) =
              part ++ 47 :: joinSegments (next :: parts) := by
            simp [joinSegments, List.intercalate]
          rw [hjoin, enter_append, ih]
          rfl

theorem foldl_enter_filter (parts : List JsString) (done : List JsString) :
    (parts.filter fun part => part ≠ []).foldl (enter allowAboveRoot) done =
      parts.foldl (enter allowAboveRoot) done := by
  induction parts generalizing done with
  | nil => rfl
  | cons part parts ih =>
      by_cases hpart : part = []
      · rw [hpart, List.filter_cons_of_neg (by simp), ih, List.foldl_cons, enter_nil]
      · rw [List.filter_cons_of_pos (by simpa using hpart), List.foldl_cons, List.foldl_cons, ih]

/-! ## Normalizing first -/

theorem pushSegment_stay {segment : JsString} (h : segment = [] ∨ segment = [46]) :
    pushSegment allowAboveRoot done segment = done := by
  simp [pushSegment, h]

theorem pushSegment_up_name {last : JsString} (hlast : IsName last) :
    pushSegment allowAboveRoot (last :: done) [46, 46] = done := by
  simp [pushSegment, hlast.notUp]

/-- `walked` is a normalized way to where `parts` lead from `done`. -/
def SameEnd (allowAboveRoot : Bool) (done walked : List JsString) (parts : List JsString) : Prop :=
  walked.reverse.foldl (pushSegment false) done = parts.foldl (pushSegment false) done ∧
    ∀ segment ∈ walked, IsName segment ∨ (allowAboveRoot = true ∧ segment = [46, 46])

theorem SameEnd.up {walked parts : List JsString} (h : SameEnd allowAboveRoot done walked parts)
    (hroot : allowAboveRoot = true ∨ done = []) :
    SameEnd allowAboveRoot done (pushSegment allowAboveRoot walked [46, 46])
      (parts ++ [[46, 46]]) := by
  obtain ⟨hend, hwalked⟩ := h
  unfold SameEnd
  rw [List.foldl_append, ← hend]
  cases walked with
  | nil =>
      rcases hroot with rfl | rfl
      · exact ⟨rfl, by simp [pushSegment]⟩
      · cases allowAboveRoot with
        | true => exact ⟨rfl, by simp [pushSegment]⟩
        | false => exact ⟨rfl, by simp [pushSegment]⟩
  | cons last rest =>
      obtain ⟨hlast, hrest⟩ := List.forall_mem_cons.mp hwalked
      rcases hlast with hname | ⟨rfl, rfl⟩
      · rw [pushSegment_up_name hname, List.reverse_cons, List.foldl_append]
        simp only [List.foldl_cons, List.foldl_nil, pushSegment_name hname,
          pushSegment_up_name hname]
        exact ⟨trivial, hrest⟩
      · have hstay : pushSegment true ([46, 46] :: rest) [46, 46] =
            [46, 46] :: [46, 46] :: rest := by
          simp [pushSegment]
        rw [hstay, List.reverse_cons, List.foldl_append]
        exact ⟨rfl, List.forall_mem_cons.mpr ⟨.inr ⟨rfl, rfl⟩, hwalked⟩⟩

theorem SameEnd.push {walked parts : List JsString} (h : SameEnd allowAboveRoot done walked parts)
    (hroot : allowAboveRoot = true ∨ done = []) {segment : JsString} (hslash : 47 ∉ segment) :
    SameEnd allowAboveRoot done (pushSegment allowAboveRoot walked segment)
      (parts ++ [segment]) := by
  by_cases hup : segment = [46, 46]
  · rw [hup]
    exact h.up hroot
  by_cases hstay : segment = [] ∨ segment = [46]
  · obtain ⟨hend, hwalked⟩ := h
    rw [pushSegment_stay hstay]
    refine ⟨?_, hwalked⟩
    rw [List.foldl_append, List.foldl_cons, List.foldl_nil, pushSegment_stay hstay, hend]
  · obtain ⟨hempty, hhere⟩ := not_or.mp hstay
    have hname : IsName segment := ⟨hempty, hslash, hhere, hup⟩
    obtain ⟨hend, hwalked⟩ := h
    rw [pushSegment_name hname]
    refine ⟨?_, List.forall_mem_cons.mpr ⟨.inl hname, hwalked⟩⟩
    rw [List.reverse_cons, List.foldl_append, List.foldl_append, hend]

theorem sameEnd_foldl (hroot : allowAboveRoot = true ∨ done = []) {parts : List JsString}
    (hslash : ∀ part ∈ parts, 47 ∉ part) :
    SameEnd allowAboveRoot done (parts.foldl (pushSegment allowAboveRoot) []) parts := by
  induction parts using List.reverseRecOn with
  | nil => exact ⟨rfl, List.forall_mem_nil _⟩
  | append_singleton parts segment ih =>
      rw [List.foldl_append]
      refine SameEnd.push (ih fun part hpart => hslash part (List.mem_append_left _ hpart)) hroot ?_
      exact hslash segment (List.mem_append_right _ (List.mem_singleton.mpr rfl))

theorem isSegment_normalizeString (path : JsString) :
    ∀ segment ∈ normalizeString path allowAboveRoot, IsSegment segment := by
  intro segment hsegment
  have hparts : ∀ part ∈ splitUnit 47 path, 47 ∉ part := fun _ => not_mem_of_mem_splitUnit
  have hend : SameEnd allowAboveRoot [] _ (splitUnit 47 path) := sameEnd_foldl (.inr rfl) hparts
  rcases hend.2 segment (List.mem_reverse.mp hsegment) with hname | ⟨-, hup⟩
  · exact .inl hname
  · exact .inr hup

theorem foldl_enter_segments {parts : List JsString} (h : ∀ part ∈ parts, IsSegment part) :
    parts.foldl (enter allowAboveRoot) done = parts.foldl (pushSegment allowAboveRoot) done := by
  induction parts generalizing done with
  | nil => rfl
  | cons part parts ih =>
      obtain ⟨hpart, hparts⟩ := List.forall_mem_cons.mp h
      rw [List.foldl_cons, List.foldl_cons, enter_segment hpart, ih hparts]

/-- The normalized path leads where the path leads. -/
theorem foldl_normalizeString (hroot : allowAboveRoot = true ∨ done = []) (path : JsString) :
    (normalizeString path allowAboveRoot).foldl (enter false) done = enter false done path := by
  rw [foldl_enter_segments (isSegment_normalizeString path)]
  exact (sameEnd_foldl hroot fun _ => not_mem_of_mem_splitUnit).1

theorem segments_eq (cwd path : JsString) :
    segments cwd path =
      (enter false (if isAbsolute path then [] else enter false [] cwd) path).reverse := by
  have hresolved : ∀ parts : List JsString,
      normalizeString (47 :: joinSegments (normalizeString
        (joinSegments (parts.filter fun part => part ≠ [])) false)) false =
          (parts.foldl (enter false) []).reverse := by
    intro parts
    change (enter false [] (47 :: joinSegments (normalizeString _ false))).reverse = _
    rw [enter_slash, enter_joinSegments, foldl_normalizeString (.inr rfl), enter_joinSegments,
      foldl_enter_filter]
  unfold segments resolve
  dsimp only
  rw [hresolved]
  by_cases habsolute : isAbsolute path = true
  · rw [if_pos habsolute, if_pos habsolute]
    rfl
  · rw [if_neg habsolute, if_neg habsolute, if_neg (by decide), List.foldl_cons, List.foldl_cons,
      enter_nil]
    rfl

/-! ## A directory and a name in it -/

theorem isAbsolute_of_not_mem {path : JsString} (h : 47 ∉ path) : isAbsolute path = false := by
  rw [isAbsolute, decide_eq_false_iff_not]
  intro hhead
  exact h (List.mem_of_mem_head? hhead)

theorem isAbsolute_append {a : JsString} (ha : a ≠ []) (b : JsString) :
    isAbsolute (a ++ b) = isAbsolute a := by
  rw [isAbsolute, isAbsolute, List.head?_append_of_ne_nil _ ha]

theorem IsSegment.relative {segment : JsString} (h : IsSegment segment) :
    segment ≠ [] ∧ isAbsolute segment = false := by
  rcases h with hname | rfl
  · exact ⟨hname.nonempty, isAbsolute_of_not_mem hname.noSlash⟩
  · decide

theorem isAbsolute_joinSegments {parts : List JsString} (h : ∀ part ∈ parts, IsSegment part) :
    isAbsolute (joinSegments parts) = false := by
  match parts with
  | [] => rfl
  | [part] =>
      rw [joinSegments, List.intercalate_singleton]
      exact (h part List.mem_cons_self).relative.2
  | part :: next :: parts =>
      obtain ⟨hnonempty, hrelative⟩ := (h part List.mem_cons_self).relative
      have hjoin : joinSegments (part :: next :: parts) =
          part ++ 47 :: joinSegments (next :: parts) := by
        simp [joinSegments, List.intercalate]
      rw [hjoin, isAbsolute_append hnonempty, hrelative]

theorem normalizeString_append_name {directory name : JsString} (h : IsName name) :
    normalizeString (directory ++ 47 :: name) allowAboveRoot =
      normalizeString directory allowAboveRoot ++ [name] := by
  change (enter allowAboveRoot [] (directory ++ 47 :: name)).reverse = _
  rw [enter_append, enter_segment (.inl h), pushSegment_name h, List.reverse_cons]
  rfl

/-- A path that ends with a name has no slash to keep at its end. -/
theorem normalize_of_name {path body : JsString} (hpath : path ≠ [])
    (hbody : joinSegments (normalizeString path (!isAbsolute path)) = body) (hnonempty : body ≠ [])
    (hlast : path.getLast? ≠ some 47) :
    normalize path = if isAbsolute path then 47 :: body else body := by
  unfold normalize
  simp only [hbody]
  simp [hpath, hnonempty, hlast]

theorem getLast?_append_name {front name : JsString} (h : IsName name) :
    (front ++ name).getLast? ≠ some 47 := by
  rw [List.getLast?_append_of_ne_nil _ h.nonempty]
  exact fun hlast => h.noSlash (List.mem_of_mem_getLast? hlast)

theorem join_name {directory name : JsString} (h : IsName name) (hdirectory : directory ≠ []) :
    join [directory, name] =
      if isAbsolute directory then
        47 :: joinSegments (normalizeString directory false ++ [name])
      else joinSegments (normalizeString directory true ++ [name]) := by
  have hpresent : ([directory, name].filter fun part => part ≠ []) = [directory, name] := by
    simp [hdirectory, h.nonempty]
  have hpath : joinSegments [directory, name] = directory ++ 47 :: name := by
    simp [joinSegments, List.intercalate]
  have hslash : 47 :: name = [47] ++ name := rfl
  have hlast : (directory ++ 47 :: name).getLast? ≠ some 47 := by
    rw [hslash, ← List.append_assoc]
    exact getLast?_append_name h
  have habsolute := isAbsolute_append hdirectory (47 :: name)
  have hnonempty : ∀ parts, joinSegments (parts ++ [name]) ≠ [] := by
    intro parts hempty
    have hwalk : enter true [] (joinSegments (parts ++ [name])) =
        name :: parts.foldl (enter true) [] := by
      rw [enter_joinSegments, List.foldl_append, List.foldl_cons, List.foldl_nil,
        enter_segment (.inl h), pushSegment_name h]
    rw [hempty, enter_nil] at hwalk
    cases hwalk
  unfold join
  simp only [hpresent, hpath]
  rw [if_neg (by simp), normalize_of_name (by simp) rfl (by
    rw [normalizeString_append_name h]
    exact hnonempty _) hlast, habsolute, normalizeString_append_name h]
  cases isAbsolute directory <;> rfl

theorem join_empty {name : JsString} (h : IsName name) : join [[], name] = name := by
  have hpresent : ([[], name].filter fun part => part ≠ []) = [name] := by
    simp [h.nonempty]
  have hrelative := isAbsolute_of_not_mem h.noSlash
  have hsegments : joinSegments (normalizeString name (!isAbsolute name)) = name := by
    change joinSegments (enter _ [] name).reverse = name
    rw [enter_segment (.inl h), pushSegment_name h]
    simp [joinSegments]
  have hlast : ([] ++ name).getLast? ≠ some 47 := getLast?_append_name h
  unfold join
  simp only [hpresent]
  rw [if_neg (by simp)]
  have hjoin : joinSegments [name] = name := by simp [joinSegments]
  rw [hjoin, normalize_of_name h.nonempty hsegments h.nonempty hlast, hrelative]
  rfl

theorem segments_join {cwd directory name : JsString} (h : IsName name) :
    segments cwd (join [directory, name]) = segments cwd directory ++ [name] := by
  by_cases hdirectory : directory = []
  · rw [hdirectory, join_empty h, segments_eq, segments_eq, isAbsolute_of_not_mem h.noSlash,
      enter_segment (.inl h), pushSegment_name h, List.reverse_cons, enter_nil]
    rfl
  have hname : IsSegment name := .inl h
  have hwalk : ∀ (above : Bool) (done : List JsString), above = true ∨ done = [] →
      enter false done (joinSegments (normalizeString directory above ++ [name])) =
        name :: enter false done directory := by
    intro above done hroot
    rw [enter_joinSegments, List.foldl_append, foldl_normalizeString hroot, List.foldl_cons,
      List.foldl_nil, enter_segment hname, pushSegment_name h]
  rw [join_name h hdirectory]
  by_cases habsolute : isAbsolute directory = true
  · have hrooted : ∀ path, isAbsolute (47 :: path) = true := fun _ => rfl
    rw [if_pos habsolute, segments_eq, segments_eq, if_pos (hrooted _), if_pos habsolute,
      enter_slash, hwalk false [] (.inr rfl), List.reverse_cons]
  · have hsegments : ∀ part ∈ normalizeString directory true ++ [name], IsSegment part := by
      intro part hpart
      rcases List.mem_append.mp hpart with hold | hnew
      · exact isSegment_normalizeString directory part hold
      · rw [List.mem_singleton.mp hnew]
        exact hname
    rw [if_neg habsolute, segments_eq, segments_eq, isAbsolute_joinSegments hsegments,
      if_neg habsolute, if_neg Bool.false_ne_true, hwalk true _ (.inl rfl), List.reverse_cons]

theorem dropCommon_append (xs ys : List JsString) : dropCommon xs (xs ++ ys) = ([], ys) := by
  induction xs with
  | nil => cases ys <;> rfl
  | cons x xs ih => rw [List.cons_append, dropCommon, if_pos rfl, ih]

theorem relative_join {cwd directory name : JsString} (h : IsName name) :
    relative cwd directory (join [directory, name]) = name := by
  have hjoin : segments cwd (join [directory, name]) = segments cwd directory ++ [name] :=
    segments_join h
  unfold segments at hjoin
  unfold relative
  simp only [hjoin, dropCommon_append]
  simp [joinSegments]

/-! ## Joining any part -/

theorem enter_normalizeString {above : Bool} {done : List JsString}
    (hroot : above = true ∨ done = []) (path : JsString) :
    enter false done (joinSegments (normalizeString path above)) = enter false done path := by
  rw [enter_joinSegments, foldl_normalizeString hroot]

/-- A slash at the end leads nowhere. -/
theorem enter_closed (done : List JsString) (body : JsString) (trailing : Prop)
    [Decidable trailing] :
    enter false done (if trailing then body ++ [47] else body) = enter false done body := by
  split_ifs
  · exact (enter_append body []).trans enter_nil
  · rfl

theorem segments_normalize_absolute (cwd : JsString) {path : JsString} (hempty : path ≠ [])
    (habsolute : isAbsolute path = true) : segments cwd (normalize path) = segments cwd path := by
  have hwalk := enter_normalizeString (.inr rfl : false = true ∨ [] = []) path
  have hslash : ∀ rest, isAbsolute (47 :: rest) = true := fun _ => rfl
  rw [segments_eq, segments_eq, normalize, if_neg hempty, habsolute, Bool.not_true, if_pos rfl]
  dsimp only
  by_cases hroot : joinSegments (normalizeString path false) = []
  · rw [hroot, enter_nil] at hwalk
    rw [if_pos hroot, if_pos rfl, hslash, if_pos rfl, enter_slash, enter_nil, ← hwalk]
  · rw [if_neg hroot, if_pos rfl, hslash, if_pos rfl, enter_slash, enter_closed, hwalk]

theorem segments_normalize_relative (cwd : JsString) {path : JsString} (hempty : path ≠ [])
    (hrelative : isAbsolute path = false) : segments cwd (normalize path) = segments cwd path := by
  have hwalk : enter false (enter false [] cwd) (joinSegments (normalizeString path true)) =
      enter false (enter false [] cwd) path := enter_normalizeString (.inl rfl) path
  -- It is relative as well, and its walk is that of its body.
  have hnormal : isAbsolute (normalize path) = false ∧
      enter false (enter false [] cwd) (normalize path) =
        enter false (enter false [] cwd) path := by
    rw [normalize, if_neg hempty, hrelative, Bool.not_false]
    dsimp only
    by_cases hroot : joinSegments (normalizeString path true) = []
    · rw [hroot, enter_nil] at hwalk
      rw [if_pos hroot, if_neg Bool.false_ne_true, ← hwalk]
      split_ifs
      · exact ⟨rfl, rfl⟩
      · exact ⟨rfl, rfl⟩
    · have hbody : isAbsolute (joinSegments (normalizeString path true)) = false :=
        isAbsolute_joinSegments (isSegment_normalizeString path)
      rw [if_neg hroot, if_neg Bool.false_ne_true, enter_closed]
      refine ⟨?_, hwalk⟩
      split_ifs
      · rw [isAbsolute_append hroot, hbody]
      · exact hbody
  rw [segments_eq, segments_eq, hnormal.1, hrelative, if_neg Bool.false_ne_true, hnormal.2]

/-- The normalized path leads where the path leads, from any directory. -/
theorem segments_normalize (cwd path : JsString) :
    segments cwd (normalize path) = segments cwd path := by
  by_cases hempty : path = []
  · subst hempty
    have hhere : normalize [] = [46] := rfl
    rw [hhere, segments_eq, segments_eq, enter_nil]
    rfl
  · cases habsolute : isAbsolute path with
    | true => exact segments_normalize_absolute cwd hempty habsolute
    | false => exact segments_normalize_relative cwd hempty habsolute

/-- A relative part is walked from where the directory is. -/
theorem segments_join_part {cwd directory part : JsString} (hpart : isAbsolute part = false) :
    segments cwd (join [directory, part]) =
      (enter false (segments cwd directory).reverse part).reverse := by
  have hjoin : join [directory, part] =
      normalize (joinSegments ([directory, part].filter fun part => part ≠ [])) := by
    unfold join
    dsimp only
    split_ifs with hnone
    · rw [hnone]
      rfl
    · rfl
  have habsolute : isAbsolute (joinSegments ([directory, part].filter fun part => part ≠ [])) =
      isAbsolute directory := by
    by_cases hdirectory : directory = []
    · by_cases hpresent : part = []
      · simp [hdirectory, hpresent, joinSegments]
      · simpa [hdirectory, hpresent, joinSegments, isAbsolute] using hpart
    · by_cases hpresent : part = []
      · simp [hdirectory, hpresent, joinSegments]
      · have hboth : joinSegments [directory, part] = directory ++ 47 :: part := by
          simp [joinSegments, List.intercalate]
        simp [hdirectory, hpresent, hboth, isAbsolute_append hdirectory]
  rw [hjoin, segments_normalize, segments_eq, segments_eq, habsolute, enter_joinSegments,
    foldl_enter_filter, List.reverse_reverse]
  rfl

/-! ## Below a directory -/

theorem isName_normalizeString (path : JsString) :
    ∀ name ∈ normalizeString path false, IsName name := by
  intro name hname
  have hend : SameEnd false [] _ (splitUnit 47 path) :=
    sameEnd_foldl (.inr rfl) fun _ => not_mem_of_mem_splitUnit
  rcases hend.2 name (List.mem_reverse.mp hname) with h | ⟨habove, -⟩
  · exact h
  · cases habove

theorem dropCommon_eq (xs ys : List JsString) :
    ∃ common, xs = common ++ (dropCommon xs ys).1 ∧ ys = common ++ (dropCommon xs ys).2 := by
  induction xs generalizing ys with
  | nil => exact ⟨[], rfl, rfl⟩
  | cons x xs ih =>
      cases ys with
      | nil => exact ⟨[], rfl, rfl⟩
      | cons y ys =>
          rw [dropCommon]
          split_ifs with hxy
          · obtain ⟨common, hxs, hys⟩ := ih ys
            refine ⟨x :: common, ?_, ?_⟩
            · rw [List.cons_append, ← hxs]
            · rw [List.cons_append, ← hys, hxy]
          · exact ⟨[], rfl, rfl⟩

theorem joinSegments_eq_append (segment : JsString) (parts : List JsString) :
    ∃ rest, joinSegments (segment :: parts) = segment ++ rest := by
  cases parts with
  | nil => exact ⟨[], by rw [joinSegments, List.intercalate_singleton, List.append_nil]⟩
  | cons next parts =>
      refine ⟨[47] ++ joinSegments (next :: parts), ?_⟩
      rw [joinSegments, List.intercalate_cons_cons, List.append_assoc]
      rfl

/-- A resolved path is its segments behind a slash. -/
theorem resolve_eq (cwd base path : JsString) :
    resolve cwd base path =
      47 :: joinSegments (segments cwd (resolve cwd base path)) := by
  unfold resolve
  dsimp only
  generalize joinSegments (List.filter _ _) = whole
  have habsolute : ∀ rest, isAbsolute (47 :: rest) = true := fun _ => rfl
  have hwalk : enter false [] (joinSegments (normalizeString whole false)) =
      enter false [] whole := enter_normalizeString (.inr rfl) whole
  rw [segments_eq, if_pos (habsolute _), enter_slash, hwalk]
  rfl

end OpticsAgent.Node.Path
