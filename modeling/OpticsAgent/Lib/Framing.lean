import Mathlib

/-!
Records joined with a separator. When every part but one is free of the
separator, the joined text still has one reading: the parts before the free
one are found from the front, the parts after it from the back.
-/

namespace OpticsAgent.Lib

variable {α : Type*} {sep : α}

theorem append_sep_inj_front {xs xs' ys ys' : List α} (h : sep ∉ xs) (h' : sep ∉ xs') :
    xs ++ sep :: ys = xs' ++ sep :: ys' ↔ xs = xs' ∧ ys = ys' := by
  constructor
  · intro heq
    induction xs generalizing xs' with
    | nil =>
        cases xs' with
        | nil => exact ⟨rfl, (List.cons.inj heq).2⟩
        | cons x' rest' =>
            obtain ⟨rfl, -⟩ := List.cons.inj heq
            exact absurd List.mem_cons_self h'
    | cons x rest ih =>
        cases xs' with
        | nil =>
            obtain ⟨rfl, -⟩ := List.cons.inj heq
            exact absurd List.mem_cons_self h
        | cons x' rest' =>
            obtain ⟨rfl, htail⟩ := List.cons.inj heq
            have hrest := ih (fun hm => h (List.mem_cons_of_mem x hm))
              (fun hm => h' (List.mem_cons_of_mem x hm)) htail
            exact ⟨congrArg (List.cons x) hrest.1, hrest.2⟩
  · rintro ⟨rfl, rfl⟩
    rfl

theorem append_sep_inj_back {xs xs' ys ys' : List α} (h : sep ∉ ys) (h' : sep ∉ ys') :
    xs ++ sep :: ys = xs' ++ sep :: ys' ↔ xs = xs' ∧ ys = ys' := by
  have hreverse : ys.reverse ++ sep :: xs.reverse = ys'.reverse ++ sep :: xs'.reverse ↔
      ys.reverse = ys'.reverse ∧ xs.reverse = xs'.reverse :=
    append_sep_inj_front (by simpa using h) (by simpa using h')
  simp only [List.reverse_inj] at hreverse
  rw [and_comm, ← hreverse, ← List.reverse_inj]
  simp

theorem intercalate_append_singleton {parts : List (List α)} (last : List α)
    (h : parts ≠ []) :
    [sep].intercalate (parts ++ [last]) = [sep].intercalate parts ++ sep :: last := by
  induction parts with
  | nil => exact absurd rfl h
  | cons p rest ih =>
      cases rest with
      | nil => simp
      | cons q rest =>
          have htail := ih (by simp)
          rw [List.cons_append, List.cons_append, List.intercalate_cons_cons,
            List.intercalate_cons_cons, ← List.cons_append, htail]
          simp

/-- One free part and separator-free parts behind it, read from the back. -/
theorem intercalate_free_back_inj {mid mid' : List α} {back back' : List (List α)}
    (hlength : back.length = back'.length) (hback : ∀ p ∈ back, sep ∉ p)
    (hback' : ∀ p ∈ back', sep ∉ p)
    (h : [sep].intercalate (mid :: back) = [sep].intercalate (mid' :: back')) :
    mid = mid' ∧ back = back' := by
  induction back using List.reverseRecOn generalizing back' with
  | nil =>
      obtain rfl := List.eq_nil_of_length_eq_zero hlength.symm
      simpa using h
  | append_singleton rest p ih =>
      cases back' using List.reverseRecOn with
      | nil => simp at hlength
      | append_singleton rest' p' =>
          rw [← List.cons_append, ← List.cons_append,
            intercalate_append_singleton p (List.cons_ne_nil _ _),
            intercalate_append_singleton p' (List.cons_ne_nil _ _),
            append_sep_inj_back (hback p (by simp)) (hback' p' (by simp))] at h
          have hrest := ih (by simpa using hlength)
            (fun q hq => hback q (List.mem_append_left _ hq))
            (fun q hq => hback' q (List.mem_append_left _ hq)) h.1
          exact ⟨hrest.1, by rw [hrest.2, h.2]⟩

/-- A record with one free part is read from both ends. -/
theorem intercalate_free_inj {front front' back back' : List (List α)} {mid mid' : List α}
    (hfrontLength : front.length = front'.length) (hbackLength : back.length = back'.length)
    (hfront : ∀ p ∈ front, sep ∉ p) (hfront' : ∀ p ∈ front', sep ∉ p)
    (hback : ∀ p ∈ back, sep ∉ p) (hback' : ∀ p ∈ back', sep ∉ p)
    (h : [sep].intercalate (front ++ mid :: back) =
      [sep].intercalate (front' ++ mid' :: back')) :
    front = front' ∧ mid = mid' ∧ back = back' := by
  induction front generalizing front' with
  | nil =>
      obtain rfl := List.eq_nil_of_length_eq_zero hfrontLength.symm
      exact ⟨rfl, intercalate_free_back_inj hbackLength hback hback' h⟩
  | cons p rest ih =>
      cases front' with
      | nil => simp at hfrontLength
      | cons p' rest' =>
          rw [List.cons_append, List.cons_append, List.intercalate_cons_of_ne_nil (by simp),
            List.intercalate_cons_of_ne_nil (by simp), List.append_assoc, List.append_assoc,
            List.singleton_append, List.singleton_append,
            append_sep_inj_front (hfront p (by simp)) (hfront' p' (by simp))] at h
          have hrest := ih (by simpa using hfrontLength)
            (fun q hq => hfront q (List.mem_cons_of_mem p hq))
            (fun q hq => hfront' q (List.mem_cons_of_mem p' hq)) h.2
          exact ⟨by rw [h.1, hrest.1], hrest.2⟩

end OpticsAgent.Lib
