import Mathlib
import OpticsAgent.Docker.ContainerListing

/-!
The label column of `docker ps`, read back by `labelsToRecord`. The column is cut
at every comma, so a label whose value has one is read in fragments; a label is
read right where its value has no comma and no fragment of another label comes
with its key.
-/

namespace OpticsAgent.Docker

open OpticsAgent.Ecma OpticsAgent.Node OpticsAgent.Lib

/-! ## One fragment -/

/-- One entry of `labelsToRecord`. -/
def labelEntry (piece : JsString) : Option (JsString × JsString) :=
  match splitUnit 61 piece with
  | [] => none
  | key :: value => if key = [] then none else some (key, [61].intercalate value)

theorem labelsToRecord_eq (labels : JsString) (h : labels ≠ []) :
    labelsToRecord labels = buildProps ((splitUnit 44 labels).filterMap labelEntry) := by
  rw [labelsToRecord, if_neg h, List.filterMap_map]
  rfl

theorem labelEntry_key {piece key value : JsString} (h : labelEntry piece = some (key, value)) :
    piece.takeWhile (· ≠ 61) = key := by
  obtain ⟨rest, hrest⟩ := splitUnit_eq_cons 61 piece
  rw [labelEntry, hrest] at h
  simp only at h
  split_ifs at h
  cases h
  rfl

/-- Only the first `=` of a label is taken for the one behind its key. -/
theorem labelEntry_label {key : JsString} (hne : key ≠ []) (hkey : 61 ∉ key) (value : JsString) :
    labelEntry (key ++ 61 :: value) = some (key, value) := by
  have hsplit : splitUnit 61 (key ++ 61 :: value) = key :: splitUnit 61 value := by
    rw [splitUnit_append, splitUnit_of_not_mem hkey]
    rfl
  rw [labelEntry, hsplit]
  simp only [if_neg hne, intercalate_splitUnit]

theorem not_mem_keys_labelEntry_iff {key : JsString} (hne : key ≠ []) (pieces : List JsString) :
    key ∉ keys (pieces.filterMap labelEntry) ↔
      ∀ piece ∈ pieces, piece.takeWhile (· ≠ 61) ≠ key := by
  constructor
  · intro h piece hpiece hkey
    apply h
    obtain ⟨rest, hrest⟩ := splitUnit_eq_cons 61 piece
    rw [hkey] at hrest
    have hentry : labelEntry piece = some (key, [61].intercalate rest) := by
      rw [labelEntry, hrest]
      simp only [if_neg hne]
    exact List.mem_map.mpr ⟨_, List.mem_filterMap.mpr ⟨piece, hpiece, hentry⟩, rfl⟩
  · intro h hmem
    obtain ⟨⟨key', value⟩, hentries, hkey⟩ := List.mem_map.mp hmem
    obtain ⟨piece, hpiece, hentry⟩ := List.mem_filterMap.mp hentries
    exact h piece hpiece ((labelEntry_key hentry).trans hkey)

/-! ## The column -/

def printedLabel (label : JsString × JsString) : JsString := label.1 ++ 61 :: label.2

/-- What the fragments of a label are read into. -/
def labelEntries (label : JsString × JsString) : List (JsString × JsString) :=
  (splitUnit 44 (printedLabel label)).filterMap labelEntry

/-- Keys that are distinct and not empty, without the two separators. -/
structure LabelKeys (labels : List (JsString × JsString)) : Prop where
  distinct : (keys labels).Nodup
  nonempty : ∀ label ∈ labels, label.1 ≠ []
  comma : ∀ label ∈ labels, 44 ∉ label.1
  equals : ∀ label ∈ labels, 61 ∉ label.1

/-- No fragment of another label has the key in front of its first `=`. -/
def Unshadowed (labels : List (JsString × JsString)) (key : JsString) : Prop :=
  ∀ other ∈ labels, other.1 ≠ key →
    ∀ fragment ∈ splitUnit 44 (printedLabel other), fragment.takeWhile (· ≠ 61) ≠ key

variable {labels : List (JsString × JsString)}

theorem labelsText_ne_nil (h : labels ≠ []) : labelsText labels ≠ [] := by
  cases labels with
  | nil => exact absurd rfl h
  | cons label rest =>
      cases rest with
      | nil => simp [labelsText]
      | cons next more => simp [labelsText, List.intercalate_cons_cons]

/-- The fragments of the column are those of the labels, in their order. -/
theorem labelsToRecord_labelsText (labels : List (JsString × JsString)) :
    labelsToRecord (labelsText labels) =
      buildProps (labels.flatMap labelEntries) := by
  cases labels with
  | nil => rfl
  | cons label rest =>
      rw [labelsToRecord_eq _ (labelsText_ne_nil (List.cons_ne_nil _ _)), labelsText,
        splitUnit_intercalate_flatMap (by simp), List.flatMap_map, List.filterMap_flatMap]
      rfl

theorem labelEntries_eq (h : LabelKeys labels) {label : JsString × JsString}
    (hmem : label ∈ labels) (hvalue : 44 ∉ label.2) :
    labelEntries label = [label] := by
  have hplain : 44 ∉ printedLabel label := by
    simp [printedLabel, h.comma label hmem, hvalue]
  rw [labelEntries, splitUnit_of_not_mem hplain, List.filterMap_cons, printedLabel,
    labelEntry_label (h.nonempty label hmem) (h.equals label hmem)]
  rfl

/-- A label without a comma is found under its key. -/
theorem ownValue_labelsToRecord (h : LabelKeys labels) {key value : JsString}
    (hmem : (key, value) ∈ labels) (hvalue : 44 ∉ value) (hfree : Unshadowed labels key) :
    ownValue (labelsToRecord (labelsText labels)) key = some value := by
  obtain ⟨before, after, hlabels⟩ := List.append_of_mem hmem
  rw [labelsToRecord_labelsText, ownValue_buildProps_eq_some_iff]
  refine ⟨before.flatMap labelEntries, after.flatMap labelEntries, ?_, ?_⟩
  · have hentry := labelEntries_eq h hmem hvalue
    rw [hlabels, List.flatMap_append, List.flatMap_cons, hentry]
    rfl
  · unfold labelEntries
    rw [← List.filterMap_flatMap, not_mem_keys_labelEntry_iff (h.nonempty _ hmem)]
    intro piece hpiece
    obtain ⟨other, hother, hfragment⟩ := List.mem_flatMap.mp hpiece
    have hdistinct : key ∉ keys after := by
      have hnodup := h.distinct
      rw [hlabels, keys, List.map_append, List.map_cons] at hnodup
      exact (List.nodup_cons.mp (List.nodup_append.mp hnodup).2.1).1
    apply hfree other
    · rw [hlabels]
      simp [hother]
    · rintro rfl
      exact hdistinct (List.mem_map_of_mem hother)
    · exact hfragment

/-- Without commas in the values, the record has the labels and nothing else. -/
theorem labelsToRecord_inverts (h : LabelKeys labels) (hvalues : ∀ label ∈ labels, 44 ∉ label.2) :
    labelsToRecord (labelsText labels) = buildProps labels := by
  rw [labelsToRecord_labelsText]
  apply congrArg
  rw [List.flatMap_congr fun label hmem => labelEntries_eq h hmem (hvalues label hmem)]
  exact List.flatMap_singleton' labels

theorem psRow_service {settings : Settings} {row : JsValue} {text : JsString}
    {found : ContainerState} (hrow : row.member (js "Labels") = .ok (.str text))
    (h : psRow settings row = .ok found) :
    found.service = ownValue (labelsToRecord text) serviceLabel := by
  rw [psRow, hrow] at h
  simp only [bind, Except.bind, pure, Except.pure, JsValue.toText, labels_column] at h
  repeat' split at h
  all_goals cases h
  rfl

/-- A label is read from the column where its value has no comma and its key is
not shadowed, and so is the service of a row. Without commas in the values the
column is read back whole. -/
theorem labels_decoded (settings : Settings) (labels : List (JsString × JsString))
    (h : LabelKeys labels) :
    (∀ key value, (key, value) ∈ labels → 44 ∉ value → Unshadowed labels key →
      ownValue (labelsToRecord (labelsText labels)) key = some value) ∧
    ((∀ label ∈ labels, 44 ∉ label.2) →
      labelsToRecord (labelsText labels) = buildProps labels ∧
        ∀ key, ownValue (labelsToRecord (labelsText labels)) key = ownValue labels key) ∧
    ∀ service row found, (serviceLabel, service) ∈ labels → 44 ∉ service →
      Unshadowed labels serviceLabel →
      row.member (js "Labels") = .ok (.str (labelsText labels)) →
      psRow settings row = .ok found → found.service = some service := by
  refine ⟨?_, ?_, ?_⟩
  · intro key value hmem hvalue hfree
    exact ownValue_labelsToRecord h hmem hvalue hfree
  · intro hvalues
    have hread := labelsToRecord_inverts h hvalues
    refine ⟨hread, fun key => ?_⟩
    rw [hread]
    exact ownValue_buildProps h.distinct key
  · intro service row found hmem hvalue hfree hrow hfound
    rw [psRow_service hrow hfound]
    exact ownValue_labelsToRecord h hmem hvalue hfree

/-- Labels as compose writes them, one value with a comma and one with `=`. -/
def sampleLabels : List (JsString × JsString) :=
  [(js "com.docker.compose.depends_on", js "db:service_started:false,cache"),
    (serviceLabel, js "web"), (js "opts", js "a=b")]

theorem labels_decoded_sample :
    (serviceLabel, js "web") ∈ sampleLabels ∧ 44 ∉ js "web" ∧
      Unshadowed sampleLabels serviceLabel ∧
      ownValue (labelsToRecord (labelsText sampleLabels)) serviceLabel = some (js "web") := by
  have hkeys : LabelKeys sampleLabels := by
    constructor <;> decide +kernel
  have hmem : (serviceLabel, js "web") ∈ sampleLabels := by decide +kernel
  have hvalue : 44 ∉ js "web" := by decide +kernel
  have hfree : Unshadowed sampleLabels serviceLabel := by
    unfold Unshadowed
    decide +kernel
  exact ⟨hmem, hvalue, hfree,
    (labels_decoded hostSettings sampleLabels hkeys).1 _ _ hmem hvalue hfree⟩

end OpticsAgent.Docker
