import Mathlib
import OpticsAgent.Ecma.Text
import OpticsAgent.Lib.Lines

/-!
How `split` undoes a concatenation: a separator ends one part and starts the
next, and text without a separator is one part.
-/

namespace OpticsAgent.Ecma

variable {sep : CodeUnit}

theorem splitUnit_ne_nil (sep : CodeUnit) (s : JsString) : splitUnit sep s ≠ [] := by
  cases s with
  | nil => simp [splitUnit]
  | cons c s =>
      rw [splitUnit]
      split_ifs
      · simp
      · split <;> simp

theorem splitUnit_cons_of_ne {c : CodeUnit} (hc : c ≠ sep) {s part : JsString}
    {parts : List JsString} (h : splitUnit sep s = part :: parts) :
    splitUnit sep (c :: s) = (c :: part) :: parts := by
  rw [splitUnit, if_neg hc, h]

/-- The parts are the lines that the separator ends, and the open one. -/
theorem splitUnit_eq_pieces (sep : CodeUnit) (s : JsString) :
    splitUnit sep s = Lib.pieces (fun c => c == sep) s := by
  induction s with
  | nil => rfl
  | cons c s ih =>
      rw [Lib.pieces_cons, splitUnit, ih]
      by_cases hc : c = sep
      · simp [hc]
      · have hne : ¬ (c == sep) = true := by simpa using hc
        rw [if_neg hc, if_neg hne, Lib.pieces_eq]
        rfl

theorem splitUnit_append (a b : JsString) :
    splitUnit sep (a ++ sep :: b) = splitUnit sep a ++ splitUnit sep b := by
  induction a with
  | nil => simp [splitUnit]
  | cons c a ih =>
      rw [List.cons_append]
      by_cases hc : c = sep
      · rw [splitUnit, if_pos hc, splitUnit, if_pos hc, ih]
        rfl
      · obtain ⟨part, parts, hsplit⟩ := List.exists_cons_of_ne_nil (splitUnit_ne_nil sep a)
        rw [splitUnit_cons_of_ne hc hsplit]
        rw [hsplit] at ih
        exact splitUnit_cons_of_ne hc ih

theorem splitUnit_of_not_mem {s : JsString} (h : sep ∉ s) : splitUnit sep s = [s] := by
  induction s with
  | nil => rfl
  | cons c s ih =>
      obtain ⟨hc, hs⟩ := not_or.mp (List.mem_cons.not.mp h)
      exact splitUnit_cons_of_ne (Ne.symm hc) (ih hs)

theorem not_mem_of_mem_splitUnit {s part : JsString} (h : part ∈ splitUnit sep s) :
    sep ∉ part := by
  induction s generalizing part with
  | nil =>
      rw [splitUnit, List.mem_singleton] at h
      simp [h]
  | cons c s ih =>
      by_cases hc : c = sep
      · rw [splitUnit, if_pos hc] at h
        rcases List.mem_cons.mp h with rfl | hrest
        · simp
        · exact ih hrest
      · obtain ⟨first, parts, hsplit⟩ := List.exists_cons_of_ne_nil (splitUnit_ne_nil sep s)
        rw [splitUnit_cons_of_ne hc hsplit] at h
        rcases List.mem_cons.mp h with rfl | hrest
        · have hfirst : sep ∉ first := ih (by rw [hsplit]; exact List.mem_cons_self)
          exact List.mem_cons.not.mpr (not_or.mpr ⟨Ne.symm hc, hfirst⟩)
        · exact ih (by rw [hsplit]; exact List.mem_cons_of_mem _ hrest)

/-- A part without the separator lies on one side of it. -/
theorem infix_append_sep {part : JsString} (h : sep ∉ part) (a b : JsString) :
    part <:+: a ++ sep :: b ↔ part <:+: a ∨ part <:+: b := by
  constructor
  · intro hpart
    rcases List.infix_append_iff.mp hpart with ha | hb | ⟨front, back, rfl, hfront, hback⟩
    · exact .inl ha
    · rcases List.infix_cons_iff.mp hb with hprefix | hb
      · rcases List.prefix_cons_iff.mp hprefix with rfl | ⟨tail, rfl, -⟩
        · exact .inl List.nil_infix
        · exact absurd List.mem_cons_self h
      · exact .inr hb
    · rcases List.prefix_cons_iff.mp hback with rfl | ⟨tail, rfl, -⟩
      · rw [List.append_nil]
        exact .inl hfront.isInfix
      · exact absurd (List.mem_append_right _ List.mem_cons_self) h
  · rintro (ha | hb)
    · exact List.infix_append_of_infix_left ha
    · exact List.infix_append_of_infix_right (hb.trans (List.infix_cons List.infix_rfl))

theorem splitUnit_eq_cons (sep : CodeUnit) (s : JsString) :
    ∃ rest, splitUnit sep s = s.takeWhile (· ≠ sep) :: rest := by
  induction s with
  | nil => exact ⟨[], rfl⟩
  | cons c s ih =>
      by_cases hc : c = sep
      · refine ⟨splitUnit sep s, ?_⟩
        rw [splitUnit, if_pos hc, List.takeWhile_cons_of_neg (by simpa using hc)]
      · obtain ⟨rest, hrest⟩ := ih
        refine ⟨rest, ?_⟩
        rw [splitUnit_cons_of_ne hc hrest, List.takeWhile_cons_of_pos (by simpa using hc)]

/-- Joining the parts undoes `split`. -/
theorem intercalate_splitUnit (sep : CodeUnit) (s : JsString) :
    [sep].intercalate (splitUnit sep s) = s := by
  induction s with
  | nil => rfl
  | cons c s ih =>
      obtain ⟨part, parts, hsplit⟩ := List.exists_cons_of_ne_nil (splitUnit_ne_nil sep s)
      by_cases hc : c = sep
      · subst hc
        rw [splitUnit, if_pos rfl, hsplit, List.intercalate_cons_cons, ← hsplit, ih]
        rfl
      · rw [splitUnit_cons_of_ne hc hsplit]
        rw [hsplit] at ih
        cases parts with
        | nil =>
          rw [List.intercalate_singleton] at ih ⊢
          rw [ih]
        | cons next rest =>
            rw [List.intercalate_cons_cons] at ih ⊢
            rw [← ih]
            rfl

/-- The joined parts are split as each of them is. -/
theorem splitUnit_intercalate_flatMap {parts : List JsString} (hne : parts ≠ []) :
    splitUnit sep ([sep].intercalate parts) = parts.flatMap (splitUnit sep) := by
  induction parts with
  | nil => exact absurd rfl hne
  | cons part rest ih =>
      cases rest with
      | nil => rw [List.intercalate_singleton, List.flatMap_singleton]
      | cons next more =>
          rw [List.intercalate_cons_cons, List.append_assoc, List.singleton_append,
            splitUnit_append, ih (List.cons_ne_nil _ _)]
          rfl

/-- Splitting undoes joining parts without the separator. -/
theorem splitUnit_intercalate {parts : List JsString} (hne : parts ≠ [])
    (h : ∀ part ∈ parts, sep ∉ part) : splitUnit sep ([sep].intercalate parts) = parts := by
  rw [splitUnit_intercalate_flatMap hne,
    List.flatMap_congr fun part hpart => splitUnit_of_not_mem (h part hpart)]
  exact List.flatMap_singleton' parts

end OpticsAgent.Ecma
