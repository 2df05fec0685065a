import Mathlib
import OpticsAgent.Lib.Lines
import OpticsAgent.Node.Buffer

/-!
`entrypoints/update.sh`: the agent's image tag in the environment file, written
before the container is replaced and put back when the new agent does not stay
up. The outcomes of the docker commands are inputs; writing the file succeeds.

The value of a tag line ends up as the replacement text of a `sed` command.
`readReplacement` reads such a text where every escape is of a special
character; what `sed` makes of any other text is the parameter `other`, which
gives `none` when `sed` reports an error.
-/

namespace OpticsAgent.Update

open OpticsAgent.Ecma OpticsAgent.Node OpticsAgent.Lib

def tagKey : List Byte := utf8Bytes (js "AGENT_IMAGE_TAG=")

def latest : List Byte := utf8Bytes (js "latest")

def lines (content : List Byte) : List (List Byte) := allLines isNewline content

/-- `grep "^AGENT_IMAGE_TAG="`. -/
def isTagLine (line : List Byte) : Bool := tagKey.isPrefixOf line

/-- `cut -d= -f2-` of a tag line. -/
def tagValue (line : List Byte) : List Byte := line.drop tagKey.length

def tagLines (content : List Byte) : List (List Byte) := (lines content).filter isTagLine

def otherLines (content : List Byte) : List (List Byte) :=
  (lines content).filter fun line => !isTagLine line

/-- The tag compose uses: the last line wins. -/
def effectiveTag (content : List Byte) : List Byte :=
  ((tagLines content).getLast?.map tagValue).getD latest

/-- Command substitution drops NUL bytes. -/
def shellText (output : List Byte) : List Byte := output.filter (· ≠ 0)

def readTag (content : List Byte) : List Byte :=
  shellText (((tagLines content).head?.map tagValue).getD latest)

/-- A part of a replacement: a unit, or `&`, the text that matched. -/
inductive Piece where
  | unit (b : Byte)
  | matched
  deriving DecidableEq

/-- The special characters of a replacement between `|` delimiters: `\`, `&`
and the delimiter. -/
def isSpecial (b : Byte) : Bool := b == 92 || b == 38 || b == 124

/-- The pieces of a replacement text, up to the end of the text. -/
def readReplacement : List Byte → Option (List Piece)
  | [] => some []
  | b :: rest =>
      if b = 92 then
        match rest with
        | [] => none
        | c :: rest' => if isSpecial c then (readReplacement rest').map (.unit c :: ·) else none
      else if b = 38 then (readReplacement rest).map (.matched :: ·)
      else if b = 124 then none
      else (readReplacement rest).map (.unit b :: ·)

def render (pieces : List Piece) (line : List Byte) : List Byte :=
  pieces.flatMap fun piece =>
    match piece with
    | .unit b => [b]
    | .matched => line

/-- Every tag line gets a new value. -/
def retag (value : List Byte → List Byte) (content : List Byte) : List Byte :=
  mapLines isNewline 10 (fun line => if isTagLine line then tagKey ++ value line else line) content

section Script

variable (other : List Byte → List Byte → Option (List Byte))

/-- `sed -i "s|^AGENT_IMAGE_TAG=.*|AGENT_IMAGE_TAG=$1|"`. -/
def sed (value content : List Byte) : Option (List Byte) :=
  match readReplacement value with
  | some pieces => some (retag (render pieces) content)
  | none => other value content

/-- `write_tag`; `none` when it fails, which leaves the file as it is. -/
def writeTag (value : List Byte) (envFile : Option (List Byte)) : Option (List Byte) :=
  let content := envFile.getD []
  if tagLines content ≠ [] then sed other value content
  else some (content ++ (tagKey ++ value ++ [10]))

/-- How the docker commands end. `settled` is `settle_and_check`. -/
structure Outcomes where
  config : Bool
  pull : Bool
  up : Bool
  settled : Bool
  rollbackUp : Bool
  rollbackSettled : Bool
  deriving DecidableEq

structure Finished where
  exitCode : ℕ
  envFile : Option (List Byte)
  /-- Whether the old agent came back, when a rollback was tried. -/
  recovered : Option Bool := none
  deriving DecidableEq

def rollback (o : Outcomes) (previousTag : List Byte) (envFile : Option (List Byte)) : Finished where
  exitCode := 1
  envFile := (writeTag other previousTag envFile).or envFile
  recovered := some (o.rollbackUp && o.rollbackSettled)

def updateScript (o : Outcomes) (targetTag : List Byte) (envFile : Option (List Byte)) : Finished :=
  if !o.config then { exitCode := 1, envFile }
  else
    let previousTag := readTag (envFile.getD [])
    if !o.pull then { exitCode := 1, envFile }
    else
      match writeTag other targetTag envFile with
      | none => { exitCode := 1, envFile }
      | some written =>
          if !o.up then rollback other o previousTag (some written)
          else if !o.settled then rollback other o previousTag (some written)
          else { exitCode := 0, envFile := some written }

end Script

def isAlnum (b : Byte) : Bool :=
  (48 ≤ b.val && b.val ≤ 57) || (65 ≤ b.val && b.val ≤ 90) || (97 ≤ b.val && b.val ≤ 122)

/-- `TAG_PATTERN`. -/
def tagPattern : List Byte → Bool
  | [] => false
  | b :: rest =>
      isAlnum b && rest.all (fun c => isAlnum c || c == 46 || c == 95 || c == 45) &&
        rest.length ≤ 127

/-! ## Replacement texts -/

/-- A text that stands for itself in a replacement. -/
def Plain (value : List Byte) : Prop := ∀ b ∈ value, isSpecial b = false

theorem readReplacement_plain {value : List Byte} (h : Plain value) :
    readReplacement value = some (value.map .unit) := by
  induction value with
  | nil => rfl
  | cons b rest ih =>
      have hb := h b List.mem_cons_self
      simp only [isSpecial, Bool.or_eq_false_iff, beq_eq_false_iff_ne] at hb
      have hrest := ih fun c hc => h c (List.mem_cons_of_mem b hc)
      rw [readReplacement.eq_def]
      simp [hb.1.1, hb.1.2, hb.2, hrest]

theorem render_unit (value line : List Byte) : render (value.map .unit) line = value := by
  induction value with
  | nil => rfl
  | cons b rest ih => simpa [render] using ih

/-- Every special character of the text is used up by being read. -/
theorem count_render {value line : List Byte} (hline : Plain line) {pieces : List Piece}
    (h : readReplacement value = some pieces) :
    (render pieces line).countP isSpecial ≤ value.countP isSpecial ∧
      ((render pieces line).countP isSpecial = value.countP isSpecial → Plain value) := by
  have hzero : line.countP isSpecial = 0 := by
    rw [List.countP_eq_zero]
    exact fun b hb => by simp [hline b hb]
  induction value using readReplacement.induct generalizing pieces with
  | case1 =>
      obtain rfl := Option.some.inj h
      exact ⟨le_refl _, fun _ => by simp [Plain]⟩
  | case2 => simp [readReplacement] at h
  | case3 c rest hc ih =>
      simp only [readReplacement, if_true, hc, Option.map_eq_some_iff] at h
      obtain ⟨tail, htail, rfl⟩ := h
      obtain ⟨hle, -⟩ := ih htail
      simp only [render, List.flatMap_cons, List.countP_append, List.countP_cons, List.countP_nil,
        hc] at hle ⊢
      exact ⟨by omega, fun heq => by simp [isSpecial] at heq; omega⟩
  | case4 c rest hc => simp [readReplacement, hc] at h
  | case5 rest hslash ih =>
      rw [readReplacement.eq_def] at h
      simp only [hslash, if_false, if_true, Option.map_eq_some_iff] at h
      obtain ⟨tail, htail, rfl⟩ := h
      obtain ⟨hle, -⟩ := ih htail
      simp only [render, List.flatMap_cons, List.countP_append, List.countP_cons, hzero] at hle ⊢
      exact ⟨by omega, fun heq => by simp [isSpecial] at heq; omega⟩
  | case6 rest hslash hamp =>
      rw [readReplacement.eq_def] at h
      simp [hslash, hamp] at h
  | case7 b rest hslash hamp hbar ih =>
      rw [readReplacement.eq_def] at h
      simp only [hslash, hamp, hbar, if_false, Option.map_eq_some_iff] at h
      obtain ⟨tail, htail, rfl⟩ := h
      obtain ⟨hle, heq⟩ := ih htail
      have hb : isSpecial b = false := by simp [isSpecial, hslash, hamp, hbar]
      simp only [render, List.flatMap_cons, List.countP_append, List.countP_cons, List.countP_nil,
        hb] at hle heq ⊢
      refine ⟨by simpa using hle, fun hcount => ?_⟩
      have hrest := heq (by simpa using hcount)
      exact List.forall_mem_cons.mpr ⟨hb, hrest⟩

/-- `sed` writes a text as it stands exactly when it is plain. -/
theorem render_eq_self_iff {value line : List Byte} (hline : Plain line) {pieces : List Piece}
    (h : readReplacement value = some pieces) : render pieces line = value ↔ Plain value := by
  constructor
  · intro heq
    exact (count_render hline h).2 (by rw [heq])
  · intro hplain
    rw [readReplacement_plain hplain] at h
    obtain rfl := Option.some.inj h
    exact render_unit value line

/-! ## Writing and reading back -/

/-- A value that fits on a line. -/
def OneLine (value : List Byte) : Prop := ∀ b ∈ value, isNewline b = false

theorem tagKey_oneLine : OneLine tagKey := by
  exact fun b hb => by simpa using List.all_eq_true.mp (by decide : tagKey.all (!isNewline ·)) b hb

theorem tagKey_plain : Plain tagKey := by
  exact fun b hb => by simpa using List.all_eq_true.mp (by decide : tagKey.all (!isSpecial ·)) b hb

theorem OneLine.append {xs ys : List Byte} (hx : OneLine xs) (hy : OneLine ys) :
    OneLine (xs ++ ys) := by
  intro b hb
  rcases List.mem_append.mp hb with h | h
  · exact hx b h
  · exact hy b h

@[simp] theorem isTagLine_append (value : List Byte) : isTagLine (tagKey ++ value) = true := by
  simp [isTagLine]

@[simp] theorem tagValue_append (value : List Byte) : tagValue (tagKey ++ value) = value := by
  simp [tagValue]

theorem lines_retag {value : List Byte → List Byte} {content : List Byte}
    (hvalue : ∀ line ∈ lines content, OneLine (value line)) :
    lines (retag value content) =
      (lines content).map fun line => if isTagLine line then tagKey ++ value line else line := by
  refine allLines_mapLines rfl (fun line hline => ?_) (fun hopen => ?_)
  · split_ifs with htag
    · exact tagKey_oneLine.append (hvalue line hline)
    · exact clean_of_mem_allLines hline
  · split_ifs with htag
    · exact List.append_ne_nil_of_left_ne_nil (by decide) _
    · exact hopen

theorem tagLines_retag {value : List Byte → List Byte} {content : List Byte}
    (hvalue : ∀ line ∈ lines content, OneLine (value line)) :
    tagLines (retag value content) = (tagLines content).map fun line => tagKey ++ value line := by
  rw [tagLines, lines_retag hvalue, tagLines]
  induction lines content with
  | nil => rfl
  | cons line rest ih =>
      cases htag : isTagLine line with
      | true => simpa [htag] using ih
      | false => simpa [htag] using ih

theorem otherLines_retag {value : List Byte → List Byte} {content : List Byte}
    (hvalue : ∀ line ∈ lines content, OneLine (value line)) :
    otherLines (retag value content) = otherLines content := by
  rw [otherLines, lines_retag hvalue, otherLines]
  induction lines content with
  | nil => rfl
  | cons line rest ih =>
      cases htag : isTagLine line with
      | true => simpa [htag] using ih
      | false => simpa [htag] using ih

theorem effectiveTag_of_last {content value : List Byte}
    (h : (tagLines content).getLast? = some (tagKey ++ value)) :
    effectiveTag content = value := by
  rw [effectiveTag, h]
  simp

/-- Retagging a file that has tag lines. -/
theorem effectiveTag_retag {value content : List Byte} (hvalue : OneLine value)
    (htags : tagLines content ≠ []) : effectiveTag (retag (fun _ => value) content) = value := by
  refine effectiveTag_of_last ?_
  rw [tagLines_retag fun _ _ => hvalue, List.getLast?_map, List.getLast?_eq_some_getLast htags]
  rfl

theorem lines_append_tag {content value : List Byte} (hopen : openLine isNewline content = [])
    (hvalue : OneLine value) :
    lines (content ++ (tagKey ++ value ++ [10])) = lines content ++ [tagKey ++ value] := by
  exact allLines_append_line rfl hopen (tagKey_oneLine.append hvalue)

/-- A file whose last line has its newline, or that has a tag line to edit. -/
def Writable (content : List Byte) : Prop :=
  tagLines content = [] → openLine isNewline content = []

/-- What `write_tag` does with a plain value. -/
structure Written (value content result : List Byte) : Prop where
  tag : effectiveTag result = value
  others : otherLines result = otherLines content
  writable : Writable result

theorem retag_written {value content : List Byte} (hvalue : OneLine value)
    (htags : tagLines content ≠ []) :
    Written value content (retag (fun _ => value) content) := by
  refine ⟨effectiveTag_retag hvalue htags, otherLines_retag fun _ _ => hvalue, fun hnone => ?_⟩
  rw [tagLines_retag fun _ _ => hvalue, List.map_eq_nil_iff] at hnone
  exact absurd hnone htags

theorem append_written {value content : List Byte} (hvalue : OneLine value)
    (htags : tagLines content = []) (hopen : openLine isNewline content = []) :
    Written value content (content ++ (tagKey ++ value ++ [10])) := by
  have hlines := lines_append_tag hopen hvalue
  have hnew : tagLines (content ++ (tagKey ++ value ++ [10])) = [tagKey ++ value] := by
    rw [tagLines, hlines, List.filter_append, ← tagLines, htags]
    simp
  refine ⟨effectiveTag_of_last (by rw [hnew]; rfl), ?_, fun hnone => ?_⟩
  · rw [otherLines, hlines, List.filter_append, ← otherLines]
    simp
  · rw [hnew] at hnone
    cases hnone

/-- Behind an unfinished line of another key the new tag becomes part of it. -/
theorem append_spoils {value content : List Byte} (hvalue : OneLine value)
    (htags : tagLines content = []) (hopen : openLine isNewline content ≠ []) :
    otherLines (content ++ (tagKey ++ value ++ [10])) ≠ otherLines content ∧
      openLine isNewline (content ++ (tagKey ++ value ++ [10])) = [] := by
  have hclean : OneLine (openLine isNewline content ++ (tagKey ++ value)) := by
    refine OneLine.append ?_ (tagKey_oneLine.append hvalue)
    exact completeLines_eq_nil_iff.mp (completeLines_openLine content)
  have hlast : openLine isNewline content ++ (tagKey ++ value ++ [10]) =
      (openLine isNewline content ++ (tagKey ++ value)) ++ 10 :: [] := by simp
  have hend : openLine isNewline (content ++ (tagKey ++ value ++ [10])) = [] := by
    rw [openLine_append, hlast, openLine_line rfl]
    rfl
  refine ⟨fun hsame => ?_, hend⟩
  have hnew : lines (content ++ (tagKey ++ value ++ [10])) =
      completeLines isNewline content ++ [openLine isNewline content ++ (tagKey ++ value)] := by
    rw [lines, allLines, if_pos hend, completeLines_append, hlast, completeLines_line hclean rfl,
      List.append_nil]
    rfl
  have hold : lines content =
      completeLines isNewline content ++ [openLine isNewline content] := by
    rw [lines, allLines, if_neg hopen]
  have hother : isTagLine (openLine isNewline content) = false := by
    have hnone := List.filter_eq_nil_iff.mp htags (openLine isNewline content)
      (by rw [hold]; simp)
    simpa using hnone
  rw [otherLines, otherLines, hnew, hold, List.filter_append, List.filter_append,
    List.append_cancel_left_eq] at hsame
  cases htag : isTagLine (openLine isNewline content ++ (tagKey ++ value)) with
  | true => simp [htag, hother] at hsame
  | false =>
      simp only [List.filter_cons, htag, hother, Bool.not_false, if_true, List.filter_nil,
        List.cons.injEq, and_true] at hsame
      have hlength := congrArg List.length hsame
      have hkey : tagKey.length = 16 := by decide
      simp only [List.length_append] at hlength
      omega

section Script

variable (other : List Byte → List Byte → Option (List Byte))

theorem writeTag_sed (value : List Byte) {envFile : Option (List Byte)}
    (htags : tagLines (envFile.getD []) ≠ []) :
    writeTag other value envFile = sed other value (envFile.getD []) := by
  exact if_pos htags

theorem writeTag_append (value : List Byte) {envFile : Option (List Byte)}
    (htags : tagLines (envFile.getD []) = []) :
    writeTag other value envFile = some (envFile.getD [] ++ (tagKey ++ value ++ [10])) := by
  exact if_neg (not_not_intro htags)

theorem sed_plain {value content : List Byte} (hplain : Plain value) :
    sed other value content = some (retag (fun _ => value) content) := by
  have hrender : render (value.map .unit) = fun _ => value := funext (render_unit value)
  rw [sed, readReplacement_plain hplain]
  exact congrArg (fun value => some (retag value content)) hrender

theorem writeTag_plain {value : List Byte} (envFile : Option (List Byte))
    (hplain : Plain value) (hvalue : OneLine value) (hwritable : Writable (envFile.getD [])) :
    ∃ written, writeTag other value envFile = some written ∧
      Written value (envFile.getD []) written := by
  by_cases htags : tagLines (envFile.getD []) = []
  · exact ⟨_, writeTag_append other value htags, append_written hvalue htags (hwritable htags)⟩
  · exact ⟨_, (writeTag_sed other value htags).trans (sed_plain other hplain),
      retag_written hvalue htags⟩

end Script

theorem tag_plain {tag : List Byte} (h : tagPattern tag = true) : Plain tag ∧ OneLine tag := by
  cases tag with
  | nil => cases h
  | cons b rest =>
      simp only [tagPattern, Bool.and_eq_true, List.all_eq_true] at h
      have hunit : ∀ c ∈ b :: rest, isAlnum c || c == 46 || c == 95 || c == 45 := by
        rintro c hc
        rcases List.mem_cons.mp hc with rfl | hmem
        · simp [h.1.1]
        · exact h.1.2 c hmem
      have hclass : ∀ c : Byte, (isAlnum c || c == 46 || c == 95 || c == 45) = true →
          isSpecial c = false ∧ isNewline c = false := by decide +kernel
      exact ⟨fun c hc => (hclass c (hunit c hc)).1, fun c hc => (hclass c (hunit c hc)).2⟩

theorem latest_plain : Plain latest ∧ OneLine latest := by
  exact tag_plain (by decide)

/-! ## The environment file after an update -/

/-- The exit code tells which tag compose reads, and no other line has changed. -/
def Consistent (targetTag : List Byte) (envFile : Option (List Byte)) (result : Finished) : Prop :=
  (result.exitCode = 0 → effectiveTag (result.envFile.getD []) = targetTag) ∧
    (result.exitCode ≠ 0 →
      effectiveTag (result.envFile.getD []) = effectiveTag (envFile.getD [])) ∧
    otherLines (result.envFile.getD []) = otherLines (envFile.getD [])

section Script

variable (other : List Byte → List Byte → Option (List Byte))

/-- The rollback's `sed`, given the value of the first tag line, writes the value
of the last one. Where the value is not one `readReplacement` reads, `sed` runs
a program of the file's own making on the file with the target tag. -/
def PutsBack (targetTag content : List Byte) : Prop :=
  match readReplacement (readTag content) with
  | some pieces => render pieces (tagKey ++ targetTag) = effectiveTag content
  | none =>
      match other (readTag content) (retag (fun _ => targetTag) content) with
      | some result => effectiveTag result = effectiveTag content ∧
          otherLines result = otherLines content
      | none => targetTag = effectiveTag content

instance (targetTag content : List Byte) : Decidable (PutsBack other targetTag content) := by
  unfold PutsBack
  split
  · infer_instance
  · split <;> infer_instance

/-- The script stops before it writes, or the file can take the new tag and the
old one can be put back if need be. -/
def ConsistentWhen (o : Outcomes) (targetTag content : List Byte) : Prop :=
  o.config = false ∨ o.pull = false ∨
    Writable content ∧
      ((o.up = true ∧ o.settled = true) ∨ tagLines content = [] ∨ PutsBack other targetTag content)

variable {other}

theorem readTag_of_none {content : List Byte} (h : tagLines content = []) :
    readTag content = latest ∧ effectiveTag content = latest := by
  constructor
  · rw [readTag, h]
    decide
  · rw [effectiveTag, h]
    rfl

theorem readTag_oneLine {content : List Byte} : OneLine (readTag content) := by
  intro b hb
  have hraw := (List.mem_filter.mp hb).1
  cases htags : tagLines content with
  | nil =>
      rw [htags] at hraw
      exact latest_plain.2 b hraw
  | cons line rest =>
      rw [htags] at hraw
      have hline : line ∈ tagLines content := by simp [htags]
      exact clean_of_mem_allLines (List.mem_filter.mp hline).1 b (List.mem_of_mem_drop hraw)

theorem render_oneLine {value line : List Byte} {pieces : List Piece} (hvalue : OneLine value)
    (hline : OneLine line) (h : readReplacement value = some pieces) :
    OneLine (render pieces line) := by
  induction value using readReplacement.induct generalizing pieces with
  | case1 =>
      obtain rfl := Option.some.inj h
      simp [OneLine, render]
  | case2 => simp [readReplacement] at h
  | case3 c rest hc ih =>
      simp only [readReplacement, if_true, hc, Option.map_eq_some_iff] at h
      obtain ⟨tail, htail, rfl⟩ := h
      have hrest := ih (fun b hb => hvalue b (by simp [hb])) htail
      exact OneLine.append (fun b hb => hvalue b (by simp at hb; simp [hb])) hrest
  | case4 c rest hc => simp [readReplacement, hc] at h
  | case5 rest hslash ih =>
      rw [readReplacement.eq_def] at h
      simp only [hslash, if_false, if_true, Option.map_eq_some_iff] at h
      obtain ⟨tail, htail, rfl⟩ := h
      exact hline.append (ih (fun b hb => hvalue b (by simp [hb])) htail)
  | case6 rest hslash hamp =>
      rw [readReplacement.eq_def] at h
      simp [hslash, hamp] at h
  | case7 b rest hslash hamp hbar ih =>
      rw [readReplacement.eq_def] at h
      simp only [hslash, hamp, hbar, if_false, Option.map_eq_some_iff] at h
      obtain ⟨tail, htail, rfl⟩ := h
      have hrest := ih (fun c hc => hvalue c (by simp [hc])) htail
      exact OneLine.append (fun c hc => hvalue c (by simp at hc; simp [hc])) hrest

/-- Without tag lines the default is put back. -/
theorem rollback_without_tag {o : Outcomes} {targetTag content written : List Byte}
    (hnone : tagLines content = []) (hwritten : Written targetTag content written) :
    Consistent targetTag (some content) (rollback other o (readTag content) (some written)) := by
  obtain ⟨hread, htag⟩ := readTag_of_none hnone
  obtain ⟨result, hresult, hlatest⟩ :=
    writeTag_plain other (some written) latest_plain.1 latest_plain.2
      hwritten.writable
  have hfile : (rollback other o (readTag content) (some written)).envFile = some result := by
    rw [rollback, hread, hresult]
    rfl
  rw [Consistent, hfile]
  refine ⟨fun hzero => absurd hzero (by simp [rollback]), fun _ => ?_, ?_⟩
  · exact hlatest.tag.trans htag.symm
  · exact hlatest.others.trans hwritten.others

/-- With tag lines it depends on what `sed` makes of the first value. -/
theorem rollback_with_tag (other : List Byte → List Byte → Option (List Byte)) (o : Outcomes)
    {targetTag content : List Byte}
    (htarget : OneLine targetTag) (htags : tagLines content ≠ []) :
    Consistent targetTag (some content)
        (rollback other o (readTag content) (some (retag (fun _ => targetTag) content))) ↔
      PutsBack other targetTag content := by
  have hwritten := retag_written htarget htags
  have hstill : tagLines (retag (fun _ => targetTag) content) ≠ [] := by
    rw [tagLines_retag fun _ _ => htarget]
    simpa using htags
  have hsed : writeTag other (readTag content) (some (retag (fun _ => targetTag) content)) =
      sed other (readTag content) (retag (fun _ => targetTag) content) :=
    writeTag_sed other _ hstill
  rw [Consistent, rollback, hsed, sed, PutsBack]
  cases hread : readReplacement (readTag content) with
  | some pieces =>
      have hone : ∀ line ∈ lines (retag (fun _ => targetTag) content),
          OneLine (render pieces line) :=
        fun line hline => render_oneLine readTag_oneLine (clean_of_mem_allLines hline) hread
      have htag : effectiveTag (retag (render pieces) (retag (fun _ => targetTag) content)) =
          render pieces (tagKey ++ targetTag) := by
        refine effectiveTag_of_last ?_
        rw [tagLines_retag hone, tagLines_retag fun _ _ => htarget, List.getLast?_map,
          List.getLast?_map, List.getLast?_eq_some_getLast htags]
        rfl
      have hothers := (otherLines_retag hone).trans hwritten.others
      simp [htag, hothers]
  | none =>
      cases hother : other (readTag content) (retag (fun _ => targetTag) content) with
      | some result => simp
      | none => simp [hwritten.tag, hwritten.others]

/-- Behind an unfinished last line the script has spoiled that line, whatever
comes after. -/
theorem rollback_spoiled {o : Outcomes} {content written previousTag : List Byte}
    (hspoiled : otherLines written ≠ otherLines content) (hopen : openLine isNewline written = [])
    (hplain : Plain previousTag) (hvalue : OneLine previousTag) :
    otherLines ((rollback other o previousTag (some written)).envFile.getD []) ≠
      otherLines content := by
  obtain ⟨result, hresult, hwritten⟩ :=
    writeTag_plain other (some written) hplain hvalue fun _ => hopen
  rw [rollback, hresult]
  intro hsame
  exact hspoiled (hwritten.others.symm.trans hsame)

/-- The script up to the docker commands that follow the first write. -/
theorem updateScript_written {o : Outcomes} {targetTag written : List Byte}
    {envFile : Option (List Byte)} (hconfig : o.config = true) (hpull : o.pull = true)
    (hwritten : writeTag other targetTag envFile = some written) :
    updateScript other o targetTag envFile =
      if o.up && o.settled then { exitCode := 0, envFile := some written }
      else rollback other o (readTag (envFile.getD [])) (some written) := by
  unfold updateScript
  rw [hconfig, hpull, hwritten]
  cases o.up <;> cases o.settled <;> rfl

end Script

/-- An update leaves the environment file consistent exactly when the file can
take a new tag line and, where the old tag must be put back, takes it back. -/
theorem update_consistent_iff (other : List Byte → List Byte → Option (List Byte)) (o : Outcomes)
    (targetTag : List Byte) (envFile : Option (List Byte))
    (htarget : tagPattern targetTag = true) :
    Consistent targetTag envFile (updateScript other o targetTag envFile) ↔
      ConsistentWhen other o targetTag (envFile.getD []) := by
  obtain ⟨hplain, hvalue⟩ := tag_plain htarget
  have hunchanged : Consistent targetTag envFile { exitCode := 1, envFile } := by
    exact ⟨fun hzero => absurd hzero one_ne_zero, fun _ => rfl, rfl⟩
  cases hconfig : o.config with
  | false => simpa [updateScript, ConsistentWhen, hconfig] using hunchanged
  | true =>
      cases hpull : o.pull with
      | false => simpa [updateScript, ConsistentWhen, hconfig, hpull] using hunchanged
      | true =>
          by_cases htags : tagLines (envFile.getD []) = []
          · have hwrite := writeTag_append other targetTag htags
            rw [updateScript_written hconfig hpull hwrite]
            by_cases hopen : openLine isNewline (envFile.getD []) = []
            · have hwritten := append_written hvalue htags hopen
              have hwhen : ConsistentWhen other o targetTag (envFile.getD []) :=
                Or.inr (Or.inr ⟨fun _ => hopen, Or.inr (Or.inl htags)⟩)
              refine iff_of_true ?_ hwhen
              split_ifs with hup
              · exact ⟨fun _ => hwritten.tag, fun h => absurd rfl h, hwritten.others⟩
              · exact rollback_without_tag htags hwritten
            · obtain ⟨hspoiled, hend⟩ := append_spoils hvalue htags hopen
              refine iff_of_false ?_ ?_
              · intro hconsistent
                have hothers := hconsistent.2.2
                split_ifs at hothers with hup
                · exact hspoiled hothers
                · rw [(readTag_of_none htags).1] at hothers
                  exact rollback_spoiled hspoiled hend latest_plain.1 latest_plain.2 hothers
              · rintro (h | h | ⟨h, -⟩)
                · rw [hconfig] at h
                  cases h
                · rw [hpull] at h
                  cases h
                · exact hopen (h htags)
          · have hwrite := (writeTag_sed other targetTag htags).trans (sed_plain other hplain)
            rw [updateScript_written hconfig hpull hwrite]
            have hwritten := retag_written hvalue htags
            by_cases hup : o.up = true ∧ o.settled = true
            · rw [if_pos (by simp [hup])]
              refine iff_of_true ?_ ?_
              · exact ⟨fun _ => hwritten.tag, fun h => absurd rfl h, hwritten.others⟩
              · exact Or.inr (Or.inr ⟨fun h => absurd h htags, Or.inl hup⟩)
            · rw [if_neg (by simpa using hup)]
              have hrollback := rollback_with_tag other o hvalue htags
              simp only [ConsistentWhen, hconfig, hpull, hup, htags, Bool.true_eq_false, false_or]
              rw [and_iff_right (show Writable (envFile.getD []) from fun h => absurd h htags)]
              exact hrollback

/-- With one value on every tag line, a rollback puts it back exactly when it is
plain. -/
theorem putsBack_iff_plain {other : List Byte → List Byte → Option (List Byte)}
    {targetTag content : List Byte} {pieces : List Piece}
    (htarget : Plain targetTag) (hsame : readTag content = effectiveTag content)
    (hread : readReplacement (readTag content) = some pieces) :
    PutsBack other targetTag content ↔ Plain (readTag content) := by
  have hline : Plain (tagKey ++ targetTag) := by
    intro b hb
    rcases List.mem_append.mp hb with h | h
    · exact tagKey_plain b h
    · exact htarget b h
  rw [PutsBack, hread, ← hsame]
  exact render_eq_self_iff hline hread

def fails : Outcomes := ⟨true, true, false, false, true, true⟩

def succeeds : Outcomes := ⟨true, true, true, true, true, true⟩

/-- A rollback over a file with a line of another key. -/
theorem update_consistent_iff_rolled_back :
    Consistent (utf8Bytes (js "1.1.0")) (some (utf8Bytes (js "PORT=80\nAGENT_IMAGE_TAG=1.0.0")))
        (updateScript (fun _ _ => none) fails (utf8Bytes (js "1.1.0"))
          (some (utf8Bytes (js "PORT=80\nAGENT_IMAGE_TAG=1.0.0")))) := by
  refine (update_consistent_iff _ fails _ _ (by decide +kernel)).mpr (Or.inr (Or.inr ⟨?_, ?_⟩))
  · exact fun h => absurd h (by decide +kernel)
  · exact Or.inr (Or.inr (by decide +kernel))

/-- A last line without a newline takes the tag up, and of two tag lines the
first one is put back. -/
theorem update_consistent_fails :
    (updateScript (fun _ _ => none) succeeds (utf8Bytes (js "1.1.0"))
        (some (utf8Bytes (js "PORT=80")))).envFile =
        some (utf8Bytes (js "PORT=80AGENT_IMAGE_TAG=1.1.0\n")) ∧
      ¬ Consistent (utf8Bytes (js "1.1.0")) (some (utf8Bytes (js "PORT=80")))
        (updateScript (fun _ _ => none) succeeds (utf8Bytes (js "1.1.0"))
          (some (utf8Bytes (js "PORT=80")))) ∧
      ¬ Consistent (utf8Bytes (js "1.1.0"))
        (some (utf8Bytes (js "AGENT_IMAGE_TAG=1.0.0\nAGENT_IMAGE_TAG=1.0.1\n")))
        (updateScript (fun _ _ => none) fails (utf8Bytes (js "1.1.0"))
          (some (utf8Bytes (js "AGENT_IMAGE_TAG=1.0.0\nAGENT_IMAGE_TAG=1.0.1\n")))) := by
  refine ⟨by decide +kernel, fun h => ?_, fun h => ?_⟩
  · exact absurd (h.1 (by decide +kernel)) (by decide +kernel)
  · exact absurd (h.2.1 (by decide +kernel)) (by decide +kernel)

end OpticsAgent.Update
