import Mathlib
import OpticsAgent.Docker.ContainerInspect
import OpticsAgent.Ecma.JsonReader
import OpticsAgent.Ecma.PlainText
import OpticsAgent.Ecma.Split

/-!
The two formats docker prints rows in, read back by `parseJsonOutput`: one JSON
array, or one object on each line. The format is guessed by whether the whole
text parses. Two objects in sequence never do, since the text of the first is
read to its end and the second is left over; one object does, as a document.
-/

namespace OpticsAgent.Docker

open OpticsAgent.Ecma OpticsAgent.Node OpticsAgent.Lib

/-- A JSON object, as a language value holds it. -/
structure JsonRow where
  props : List (JsString × Json)
  wellFormed : (Json.obj props).WellFormed

namespace JsonRow

def json (row : JsonRow) : Json := .obj row.props

/-- `JSON.stringify(row)`. -/
def print (row : JsonRow) : JsString := row.json.print

/-- The row as a value, `-0` written as `0`. -/
def value (row : JsonRow) : JsValue := row.json.parsed

end JsonRow

/-- White space, over any number of lines. -/
def Blank (s : JsString) : Prop := ∀ c ∈ s, isTrimmed c = true

/-- Each row and what stands between it and the next. -/
def jsonLines (lines : List (JsonRow × JsString)) : JsString :=
  lines.flatMap fun line => line.1.print ++ line.2

/-- Every row ends its line, the last one may leave it open. -/
structure LineEnds (lines : List (JsonRow × JsString)) : Prop where
  blank : ∀ line ∈ lines, Blank line.2
  newline : ∀ line ∈ lines.dropLast, 10 ∈ line.2

theorem LineEnds.rest {line next : JsonRow × JsString} {more : List (JsonRow × JsString)}
    (h : LineEnds (line :: next :: more)) : LineEnds (next :: more) where
  blank := fun other hother => h.blank other (List.mem_cons_of_mem _ hother)
  newline := fun other hother => h.newline other (List.mem_cons_of_mem _ hother)

/-! ## A printed row -/

/-- From an opening unit to a closing one. -/
def Between (first last : CodeUnit) (s : JsString) : Prop := ∃ middle, s = first :: middle ++ [last]

theorem Between.around {first last first' last' : CodeUnit} {s t : JsString}
    (hs : Between first last s) (between : JsString) (ht : Between first' last' t) :
    Between first last' (s ++ between ++ t) := by
  obtain ⟨middle, rfl⟩ := hs
  obtain ⟨middle', rfl⟩ := ht
  exact ⟨middle ++ [last] ++ between ++ first' :: middle', by simp⟩

theorem Between.ne_nil {first last : CodeUnit} {s : JsString} (h : Between first last s) :
    s ≠ [] := by
  obtain ⟨middle, rfl⟩ := h
  simp

theorem Between.trim_eq {first last : CodeUnit} {s : JsString} (h : Between first last s)
    (hfirst : isTrimmed first = false) (hlast : isTrimmed last = false) : trim s = s := by
  obtain ⟨middle, rfl⟩ := h
  apply trim_of_ends
  · intro c hc
    simp only [List.cons_append, List.head?_cons, Option.some.injEq] at hc
    exact hc ▸ hfirst
  · intro c hc
    simp only [List.getLast?_append, List.getLast?_singleton, Option.some_or,
      Option.some.injEq] at hc
    exact hc ▸ hlast

theorem printItems_last (items : List Json) :
    ∃ front, Json.printItems items = front ++ [93] := by
  induction items with
  | nil => exact ⟨[], rfl⟩
  | cons x rest ih =>
      obtain ⟨front, hfront⟩ := ih
      refine ⟨44 :: x.print ++ front, ?_⟩
      rw [Json.printItems, hfront]
      simp

theorem between_print_arr (items : List Json) : Between 91 93 (Json.arr items).print := by
  cases items with
  | nil => exact ⟨[], rfl⟩
  | cons x rest =>
      obtain ⟨front, hfront⟩ := printItems_last rest
      refine ⟨x.print ++ front, ?_⟩
      rw [Json.print, hfront]
      simp

theorem printProps_last (props : List (JsString × Json)) :
    ∃ front, Json.printProps props = front ++ [125] := by
  induction props with
  | nil => exact ⟨[], rfl⟩
  | cons p rest ih =>
      obtain ⟨front, hfront⟩ := ih
      refine ⟨44 :: quote p.1 ++ 58 :: p.2.print ++ front, ?_⟩
      rw [Json.printProps, hfront]
      simp

namespace JsonRow

variable (row : JsonRow)

theorem between_print : Between 123 125 row.print := by
  obtain ⟨props, hwell⟩ := row
  cases props with
  | nil => exact ⟨[], rfl⟩
  | cons p rest =>
      obtain ⟨front, hfront⟩ := printProps_last rest
      refine ⟨quote p.1 ++ 58 :: p.2.print ++ front, ?_⟩
      unfold print json
      rw [Json.print, hfront]
      simp

theorem parseJson_print : parseJson row.print = some row.value :=
  Ecma.parseJson_print row.json row.wellFormed

theorem value_obj : ∃ props, row.value = .obj props :=
  ⟨_, Json.parsed_obj row.props⟩

/-- Whatever follows a row is left over. -/
theorem parseValue_print (more : JsString) {fuel : ℕ} (hfuel : row.print.length ≤ fuel) :
    parseValue fuel (row.print ++ more) = some (row.value, more) := by
  have hread := readsBack row.json row.wellFormed fuel [] (by simp [Delimited]) hfuel
  have hclosed : Closed row.value [] := by
    obtain ⟨props, hprops⟩ := row.value_obj
    rintro ⟨x, hx⟩
    rw [hprops] at hx
    cases hx
  have happend := (parse_append fuel).1 _ _ _ hread more hclosed
  rwa [List.append_nil] at happend

end JsonRow

/-! ## The lines of a text -/

/-- The lines `parseJsonOutput` falls back to. -/
def trimmedLines (text : JsString) : List JsString :=
  ((splitUnit 10 text).map trim).filter (· != [])

theorem trimmedLines_append (a b : JsString) :
    trimmedLines (a ++ 10 :: b) = trimmedLines a ++ trimmedLines b := by
  rw [trimmedLines, splitUnit_append, List.map_append, List.filter_append]
  rfl

theorem trimmedLines_blank {blank : JsString} (h : Blank blank) (s : JsString) :
    trimmedLines (blank ++ s) = trimmedLines s := by
  induction blank with
  | nil => rfl
  | cons c blank ih =>
      obtain ⟨hc, hblank⟩ := List.forall_mem_cons.mp h
      rw [← ih hblank, List.cons_append]
      by_cases hnewline : c = 10
      · subst hnewline
        exact trimmedLines_append [] _
      · obtain ⟨part, parts, hsplit⟩ :=
          List.exists_cons_of_ne_nil (splitUnit_ne_nil 10 (blank ++ s))
        have htrim : trim (c :: part) = trim part :=
          trim_append_left (a := [c]) (by simpa using hc)
        rw [trimmedLines, trimmedLines, splitUnit_cons_of_ne hnewline hsplit, hsplit,
          List.map_cons, List.map_cons, htrim]

theorem JsonRow.trim_print (row : JsonRow) : trim row.print = row.print :=
  row.between_print.trim_eq (by decide) (by decide)

/-- A row and blanks without a newline are one line. -/
theorem JsonRow.trimmedLines_print (row : JsonRow) {blank : JsString} (h : Blank blank)
    (hnewline : 10 ∉ blank) : trimmedLines (row.print ++ blank) = [row.print] := by
  have hline : 10 ∉ row.print ++ blank := by
    rw [List.mem_append, not_or]
    exact ⟨(plain_print row.json).no_newline, hnewline⟩
  rw [trimmedLines, splitUnit_of_not_mem hline, List.map_singleton, trim_append_right h,
    row.trim_print]
  simp [row.between_print.ne_nil]

theorem trimmedLines_row (row : JsonRow) {gap : JsString} (h : Blank gap) (hnewline : 10 ∈ gap)
    (text : JsString) :
    trimmedLines (row.print ++ gap ++ text) = row.print :: trimmedLines text := by
  obtain ⟨front, back, rfl, hfront⟩ := List.eq_append_cons_of_mem hnewline
  obtain ⟨hblank, hback⟩ := List.forall_mem_append.mp h
  have hsplit : row.print ++ (front ++ 10 :: back) ++ text =
      row.print ++ front ++ 10 :: (back ++ text) := by simp
  rw [hsplit, trimmedLines_append, row.trimmedLines_print hblank hfront,
    trimmedLines_blank (List.forall_mem_cons.mp hback).2]
  rfl

/-- The text of the rows from the first brace to the last, and what follows it. -/
theorem jsonLines_core {lines : List (JsonRow × JsString)} (hne : lines ≠ []) (h : LineEnds lines) :
    ∃ core ending, jsonLines lines = core ++ ending ∧ Blank ending ∧ Between 123 125 core ∧
      trimmedLines core = lines.map fun line => line.1.print := by
  induction lines with
  | nil => exact absurd rfl hne
  | cons line rest ih =>
      obtain ⟨row, ending⟩ := line
      have hending : Blank ending := h.blank _ List.mem_cons_self
      cases rest with
      | nil =>
          refine ⟨row.print, ending, ?_, hending, row.between_print, ?_⟩
          · simp [jsonLines]
          · have hempty : Blank [] := by simp [Blank]
            have hline := row.trimmedLines_print hempty (by simp)
            rwa [List.append_nil] at hline
      | cons next more =>
          obtain ⟨core, last, htext, hlast, hcore, hlines⟩ := ih (List.cons_ne_nil _ _) h.rest
          have hnewline : 10 ∈ ending := h.newline (row, ending) List.mem_cons_self
          refine ⟨row.print ++ ending ++ core, last, ?_, hlast,
            row.between_print.around ending hcore, ?_⟩
          · rw [jsonLines, List.flatMap_cons, ← jsonLines, htext]
            simp
          · rw [trimmedLines_row row hending hnewline, hlines]
            rfl

/-! ## The two formats -/

/-- Two rows in sequence are not one document. -/
theorem parseJson_rows (row : JsonRow) (gap : JsString) {text : JsString}
    (h : Between 123 125 text) : parseJson (row.print ++ gap ++ text) = none := by
  have hfuel : row.print.length ≤ (row.print ++ (gap ++ text)).length + 1 := by
    simp
    omega
  have hleft : skipSpace (gap ++ text) ≠ [] := by
    obtain ⟨middle, rfl⟩ := h
    unfold skipSpace
    rw [Ne, List.dropWhile_eq_nil_iff]
    intro hall
    exact absurd (hall 123 (by simp)) (by decide)
  rw [List.append_assoc, parseJson, row.parseValue_print _ hfuel]
  exact if_neg hleft

theorem parseJsonOutput_blank {lead trail : JsString} (hlead : Blank lead) (htrail : Blank trail)
    (text : JsString) : parseJsonOutput (lead ++ text ++ trail) = parseJsonOutput text := by
  unfold parseJsonOutput
  rw [trim_append_right htrail, trim_append_left hlead]

theorem parseJsonOutput_row (row : JsonRow) : parseJsonOutput row.print = [row.value] := by
  obtain ⟨props, hvalue⟩ := row.value_obj
  rw [parseJsonOutput, row.trim_print, if_neg row.between_print.ne_nil, row.parseJson_print, hvalue]

/-- Without a document in the text, its lines are read one by one. -/
theorem parseJsonOutput_fallback {text : JsString} (h : Between 123 125 text)
    (hparse : parseJson text = none) :
    parseJsonOutput text = (trimmedLines text).filterMap parseJson := by
  rw [parseJsonOutput, h.trim_eq (by decide) (by decide), if_neg h.ne_nil, hparse]
  rfl

theorem parseJsonOutput_jsonLines {lines : List (JsonRow × JsString)} (h : LineEnds lines) :
    parseJsonOutput (jsonLines lines) = lines.map fun line => line.1.value := by
  cases lines with
  | nil => rfl
  | cons line rest =>
      obtain ⟨row, ending⟩ := line
      have hending : Blank ending := h.blank _ List.mem_cons_self
      cases rest with
      | nil =>
          have hempty : Blank [] := by simp [Blank]
          have hone := parseJsonOutput_blank hempty hending row.print
          rw [parseJsonOutput_row] at hone
          simpa [jsonLines] using hone
      | cons next more =>
          have hnewline : 10 ∈ ending := h.newline (row, ending) List.mem_cons_self
          obtain ⟨core, last, htext, hlast, hcore, hlines⟩ :=
            jsonLines_core (List.cons_ne_nil _ _) h.rest
          have hsplit : jsonLines ((row, ending) :: next :: more) =
              [] ++ (row.print ++ ending ++ core) ++ last := by
            rw [jsonLines, List.flatMap_cons, ← jsonLines, htext]
            simp
          have hread (line : JsonRow × JsString) : parseJson line.1.print = some line.1.value :=
            line.1.parseJson_print
          rw [hsplit, parseJsonOutput_blank (by simp [Blank]) hlast,
            parseJsonOutput_fallback (row.between_print.around ending hcore)
              (parseJson_rows row ending hcore),
            trimmedLines_row row hending hnewline, hlines,
            List.filterMap_cons_some row.parseJson_print, List.filterMap_map]
          simp [hread]

/-- Rows printed as one array or one to a line, with blank lines around them, are
read back in their order. -/
theorem parseJsonOutput_rows {lead trail : JsString} (hlead : Blank lead) (htrail : Blank trail) :
    (∀ rows : List JsonRow,
      parseJsonOutput (lead ++ (Json.arr (rows.map JsonRow.json)).print ++ trail) =
        rows.map JsonRow.value) ∧
    (∀ lines, LineEnds lines → parseJsonOutput (lead ++ jsonLines lines ++ trail) =
      lines.map fun line => line.1.value) ∧
    ∀ row : JsonRow, row.json.clearNegZero = row.json → row.value = row.json.toValue := by
  refine ⟨?_, ?_, ?_⟩
  · intro rows
    have hwell : (Json.arr (rows.map JsonRow.json)).WellFormed := by
      rw [Json.WellFormed, Json.wellFormedItems_iff]
      rintro _ hmem
      obtain ⟨row, -, rfl⟩ := List.mem_map.mp hmem
      exact row.wellFormed
    have hends := between_print_arr (rows.map JsonRow.json)
    rw [parseJsonOutput_blank hlead htrail, parseJsonOutput, hends.trim_eq (by decide) (by decide),
      if_neg hends.ne_nil, parseJson_print _ hwell, Json.parsed_arr, List.map_map]
    rfl
  · intro lines h
    rw [parseJsonOutput_blank hlead htrail]
    exact parseJsonOutput_jsonLines h
  · intro row hrow
    rw [JsonRow.value, Json.parsed, hrow]

/-- A row with a newline in a string, and one with an object in it. -/
def sampleRows : List (List (JsString × Json)) :=
  [[(js "Names", .str (js "web\n1"))], [(js "Labels", .obj [(js "a", .null)])]]

theorem sampleRows_wellFormed : ∀ props ∈ sampleRows, (Json.obj props).WellFormed := by
  simp [sampleRows, Json.WellFormed, Json.WellFormedProps, OwnOrder]

theorem parseJsonOutput_rows_crlf : ∃ first second : JsonRow,
    [first.props, second.props] = sampleRows ∧
      parseJsonOutput ([10] ++ jsonLines [(first, [13, 10]), (second, [])] ++ [32, 13, 10]) =
        [first.value, second.value] := by
  have hfirst := sampleRows_wellFormed _ List.mem_cons_self
  have hsecond := sampleRows_wellFormed _ (List.mem_cons_of_mem _ List.mem_cons_self)
  refine ⟨⟨_, hfirst⟩, ⟨_, hsecond⟩, rfl, ?_⟩
  have hlines : LineEnds [(⟨_, hfirst⟩, [13, 10]), (⟨_, hsecond⟩, [])] := by
    constructor <;> simp [Blank, isTrimmed]
  have hlead : Blank [10] := by simp [Blank, isTrimmed]
  have htrail : Blank [32, 13, 10] := by simp [Blank, isTrimmed]
  exact (parseJsonOutput_rows hlead htrail).2.1 _ hlines

end OpticsAgent.Docker
