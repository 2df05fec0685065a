import Mathlib

/-!
Sequences cut into lines by end marks: the complete lines, the open line
behind the last mark, and what lies behind the first lines. A sequence may
arrive in pieces, so every function has a law for `xs ++ ys` that only needs
the open line of `xs`.
-/

namespace OpticsAgent.Lib

variable {α : Type*} (isEnd : α → Bool)

/-- The first unit goes to the first line. -/
def extendHead (x : α) : List (List α) → List (List α)
  | [] => []
  | line :: lines => (x :: line) :: lines

/-- The lines that have ended, without their marks. -/
def completeLines : List α → List (List α)
  | [] => []
  | x :: rest =>
      if isEnd x then [] :: completeLines rest else extendHead x (completeLines rest)

/-- What stands behind the last mark. -/
def openLine : List α → List α
  | [] => []
  | x :: rest =>
      if isEnd x = false ∧ completeLines isEnd rest = [] then x :: rest else openLine rest

/-- What stands behind the first `n` marks. -/
def behind : ℕ → List α → List α
  | 0, xs => xs
  | _ + 1, [] => []
  | n + 1, x :: rest => if isEnd x then behind n rest else behind (n + 1) rest

variable {isEnd}

@[simp] theorem extendHead_eq_nil {x : α} {lines : List (List α)} :
    extendHead x lines = [] ↔ lines = [] := by
  cases lines <;> simp [extendHead]

theorem extendHead_append {x : α} {lines more : List (List α)} (h : lines ≠ []) :
    extendHead x (lines ++ more) = extendHead x lines ++ more := by
  cases lines with
  | nil => exact absurd rfl h
  | cons line lines => rfl

theorem length_extendHead (x : α) (lines : List (List α)) :
    (extendHead x lines).length = lines.length := by
  cases lines <;> rfl

theorem completeLines_eq_nil_iff {xs : List α} :
    completeLines isEnd xs = [] ↔ ∀ x ∈ xs, isEnd x = false := by
  induction xs with
  | nil => simp [completeLines]
  | cons x rest ih =>
      rw [completeLines]
      cases hx : isEnd x with
      | true => simp [hx]
      | false => simpa [hx] using ih

theorem openLine_of_completeLines_nil {xs : List α} (h : completeLines isEnd xs = []) :
    openLine isEnd xs = xs := by
  cases xs with
  | nil => rfl
  | cons x rest =>
      have hall := completeLines_eq_nil_iff.mp h
      have hrest : completeLines isEnd rest = [] :=
        completeLines_eq_nil_iff.mpr fun y hy => hall y (List.mem_cons_of_mem x hy)
      rw [openLine, if_pos ⟨hall x List.mem_cons_self, hrest⟩]

theorem completeLines_openLine (xs : List α) :
    completeLines isEnd (openLine isEnd xs) = [] := by
  induction xs with
  | nil => rfl
  | cons x rest ih =>
      rw [openLine]
      split_ifs with h
      · simp [completeLines, h.1, h.2]
      · exact ih

@[simp] theorem openLine_openLine (xs : List α) :
    openLine isEnd (openLine isEnd xs) = openLine isEnd xs := by
  exact openLine_of_completeLines_nil (completeLines_openLine xs)

/-- The lines of two pieces: the open line of the first goes on in the second. -/
theorem completeLines_append (xs ys : List α) :
    completeLines isEnd (xs ++ ys) =
      completeLines isEnd xs ++ completeLines isEnd (openLine isEnd xs ++ ys) := by
  induction xs with
  | nil => rfl
  | cons x rest ih =>
      rw [List.cons_append, completeLines, completeLines, openLine, ih]
      cases hx : isEnd x with
      | true => simp
      | false =>
          by_cases hnil : completeLines isEnd rest = []
          · simp [hnil, completeLines, hx, openLine_of_completeLines_nil hnil]
          · simp [hnil, extendHead_append hnil]

theorem openLine_append (xs ys : List α) :
    openLine isEnd (xs ++ ys) = openLine isEnd (openLine isEnd xs ++ ys) := by
  induction xs with
  | nil => rfl
  | cons x rest ih =>
      by_cases h : isEnd x = false ∧ completeLines isEnd rest = []
      · rw [show openLine isEnd (x :: rest) = x :: rest from if_pos h]
      · rw [openLine, if_neg h, ← ih, List.cons_append, openLine, if_neg]
        intro hboth
        refine h ⟨hboth.1, ?_⟩
        have hall := completeLines_eq_nil_iff.mp hboth.2
        exact completeLines_eq_nil_iff.mpr fun y hy => hall y (List.mem_append_left _ hy)

/-- The lines and what is open have everything but the marks. -/
theorem flatten_completeLines (xs : List α) :
    (completeLines isEnd xs).flatten ++ openLine isEnd xs = xs.filter fun x => !isEnd x := by
  induction xs with
  | nil => rfl
  | cons x rest ih =>
      rw [completeLines, openLine, List.filter_cons, ← ih]
      cases hx : isEnd x with
      | true => simp
      | false =>
          cases hlines : completeLines isEnd rest with
          | nil => simp [extendHead, openLine_of_completeLines_nil hlines]
          | cons line lines => simp [extendHead]

/-- A marked line in front of anything. -/
theorem completeLines_line {line : List α} {x : α} (hline : ∀ y ∈ line, isEnd y = false)
    (hx : isEnd x = true) (rest : List α) :
    completeLines isEnd (line ++ x :: rest) = line :: completeLines isEnd rest := by
  induction line with
  | nil => simp [completeLines, hx]
  | cons y line ih =>
      have hy := hline y List.mem_cons_self
      have hrest := ih fun z hz => hline z (List.mem_cons_of_mem y hz)
      simp [completeLines, hy, hrest, extendHead]

theorem openLine_line {line : List α} {x : α} (hx : isEnd x = true) (rest : List α) :
    openLine isEnd (line ++ x :: rest) = openLine isEnd rest := by
  induction line with
  | nil => simp [openLine, hx]
  | cons y line ih =>
      rw [List.cons_append, openLine, if_neg, ih]
      rintro ⟨-, hnil⟩
      have hmark := completeLines_eq_nil_iff.mp hnil x (by simp)
      rw [hx] at hmark
      cases hmark

theorem behind_line {line : List α} {x : α} (hline : ∀ y ∈ line, isEnd y = false)
    (hx : isEnd x = true) (n : ℕ) (rest : List α) :
    behind isEnd (n + 1) (line ++ x :: rest) = behind isEnd n rest := by
  induction line with
  | nil => simp [behind, hx]
  | cons y line ih =>
      have hy := hline y List.mem_cons_self
      simpa [behind, hy] using ih fun z hz => hline z (List.mem_cons_of_mem y hz)

/-- A sequence without marks, or a first line and what lies behind its mark. -/
theorem clean_or_line (isEnd : α → Bool) (xs : List α) : (∀ x ∈ xs, isEnd x = false) ∨
    ∃ line x rest, xs = line ++ x :: rest ∧ (∀ y ∈ line, isEnd y = false) ∧ isEnd x = true := by
  induction xs with
  | nil => exact Or.inl (by simp)
  | cons y rest ih =>
      cases hy : isEnd y with
      | true => exact Or.inr ⟨[], y, rest, rfl, by simp, hy⟩
      | false =>
          rcases ih with hclean | ⟨line, x, more, rfl, hline, hx⟩
          · exact Or.inl (List.forall_mem_cons.mpr ⟨hy, hclean⟩)
          · exact Or.inr ⟨y :: line, x, more, rfl, List.forall_mem_cons.mpr ⟨hy, hline⟩, hx⟩

/-- In front of anything a sequence without marks goes to the first line, or to
the open one. -/
theorem lines_of_front {front : List α} (hfront : ∀ x ∈ front, isEnd x = false) (xs : List α) :
    (completeLines isEnd xs = [] ∧ completeLines isEnd (front ++ xs) = [] ∧
        openLine isEnd (front ++ xs) = front ++ openLine isEnd xs) ∨
      (∃ line lines, completeLines isEnd xs = line :: lines ∧
        completeLines isEnd (front ++ xs) = (front ++ line) :: lines ∧
        openLine isEnd (front ++ xs) = openLine isEnd xs) := by
  rcases clean_or_line isEnd xs with hclean | ⟨line, x, rest, rfl, hline, hx⟩
  · left
    have hnil := completeLines_eq_nil_iff.mpr hclean
    have hboth : completeLines isEnd (front ++ xs) = [] := by
      apply completeLines_eq_nil_iff.mpr
      intro y hy
      exact (List.mem_append.mp hy).elim (hfront y) (hclean y)
    refine ⟨hnil, hboth, ?_⟩
    rw [openLine_of_completeLines_nil hboth, openLine_of_completeLines_nil hnil]
  · right
    have hmore : ∀ y ∈ front ++ line, isEnd y = false := by
      intro y hy
      exact (List.mem_append.mp hy).elim (hfront y) (hline y)
    refine ⟨line, completeLines isEnd rest, completeLines_line hline hx rest, ?_, ?_⟩
    · rw [← List.append_assoc, completeLines_line hmore hx]
    · rw [← List.append_assoc, openLine_line hx, openLine_line hx]

/-- More input does not change where the first lines end. -/
theorem behind_append {n : ℕ} {xs : List α} (h : n ≤ (completeLines isEnd xs).length)
    (ys : List α) : behind isEnd n (xs ++ ys) = behind isEnd n xs ++ ys := by
  induction xs generalizing n with
  | nil =>
      obtain rfl := Nat.le_zero.mp h
      simp [behind]
  | cons x rest ih =>
      cases n with
      | zero => simp [behind]
      | succ n =>
          rw [completeLines] at h
          cases hx : isEnd x with
          | true =>
              simp only [hx, if_true, List.length_cons, Nat.succ_le_succ_iff] at h
              simpa [behind, hx] using ih h
          | false =>
              simp only [hx, Bool.false_eq_true, if_false, length_extendHead] at h
              simpa [behind, hx] using ih h

/-- Behind the complete lines of the first piece only its open line is left. -/
theorem behind_add (n : ℕ) (xs ys : List α) :
    behind isEnd ((completeLines isEnd xs).length + n) (xs ++ ys) =
      behind isEnd n (openLine isEnd xs ++ ys) := by
  induction xs with
  | nil => simp [completeLines, openLine]
  | cons x rest ih =>
      rw [completeLines, openLine]
      cases hx : isEnd x with
      | true => simpa [behind, hx, Nat.succ_add] using ih
      | false =>
          by_cases hnil : completeLines isEnd rest = []
          · simp [hnil, extendHead]
          · obtain ⟨m, hm⟩ := Nat.exists_eq_succ_of_ne_zero
              (fun hzero => hnil (List.eq_nil_of_length_eq_zero hzero))
            rw [hm] at ih
            simp only [Bool.false_eq_true, if_false, hnil, and_false, length_extendHead, hm]
            rw [← ih, Nat.succ_add, List.cons_append, behind, if_neg (by simp [hx])]

/-! ## Showing lines piece by piece -/

/-- The lines, the open one included. -/
def pieces (isEnd : α → Bool) (xs : List α) : List (List α) :=
  completeLines isEnd xs ++ [openLine isEnd xs]

/-- What stands in front of the first mark. -/
def firstLine (isEnd : α → Bool) (xs : List α) : List α := xs.takeWhile fun x => !isEnd x

/-- The lines behind the first mark. -/
def moreLines (isEnd : α → Bool) (xs : List α) : List (List α) := (pieces isEnd xs).tail

theorem pieces_cons (x : α) (rest : List α) :
    pieces isEnd (x :: rest) =
      if isEnd x then [] :: pieces isEnd rest else extendHead x (pieces isEnd rest) := by
  unfold pieces
  rw [completeLines, openLine]
  cases hx : isEnd x with
  | true => simp
  | false =>
      by_cases hnil : completeLines isEnd rest = []
      · simp [hnil, extendHead, openLine_of_completeLines_nil hnil]
      · simp [hnil, extendHead_append hnil]

theorem pieces_eq (xs : List α) :
    pieces isEnd xs = firstLine isEnd xs :: moreLines isEnd xs := by
  induction xs with
  | nil => rfl
  | cons x rest ih =>
      rw [moreLines, pieces_cons, firstLine, List.takeWhile_cons]
      cases hx : isEnd x with
      | true => simp
      | false =>
          rw [ih]
          rfl

theorem pieces_append (xs ys : List α) :
    pieces isEnd (xs ++ ys) = completeLines isEnd xs ++
      (openLine isEnd xs ++ firstLine isEnd ys) :: moreLines isEnd ys := by
  induction xs with
  | nil => exact pieces_eq ys
  | cons x rest ih =>
      rw [List.cons_append, pieces_cons, ih, completeLines, openLine]
      cases hx : isEnd x with
      | true => simp
      | false =>
          by_cases hnil : completeLines isEnd rest = []
          · simp [hnil, extendHead, openLine_of_completeLines_nil hnil]
          · simp [hnil, extendHead_append hnil]

theorem pieces_of_clean {xs : List α} (h : ∀ x ∈ xs, isEnd x = false) :
    pieces isEnd xs = [xs] := by
  have hnil := completeLines_eq_nil_iff.mpr h
  rw [pieces, hnil, openLine_of_completeLines_nil hnil, List.nil_append]

theorem pieces_line {line : List α} {x : α} (hline : ∀ y ∈ line, isEnd y = false)
    (hx : isEnd x = true) (rest : List α) :
    pieces isEnd (line ++ x :: rest) = line :: pieces isEnd rest := by
  rw [pieces, completeLines_line hline hx, openLine_line hx]
  rfl

section Shown

variable {β : Type*}

/-- What a line shows: one thing at most, and a part that shows nothing does not
change what the rest of the line shows. -/
structure Shows (shown : List α → List β) : Prop where
  empty : shown [] = []
  short : ∀ line, (shown line).length ≤ 1
  left : ∀ front back, shown front = [] → shown (front ++ back) = shown back
  right : ∀ front back, shown back = [] → shown (front ++ back) = shown front

def emitted (isEnd : α → Bool) (shown : List α → List β) (xs : List α) : List β :=
  (pieces isEnd xs).flatMap shown

/-- No chunk ends inside a line between two parts that both show something. -/
def WholeLines (isEnd : α → Bool) (shown : List α → List β) : List (List α) → Prop
  | [] => True
  | chunk :: after =>
      (shown (openLine isEnd chunk) = [] ∨ shown (firstLine isEnd after.flatten) = []) ∧
        WholeLines isEnd shown after

variable {shown : List α → List β}

/-- A cut shows the two parts of its line one by one. -/
theorem emitted_append (isEnd : α → Bool) (shown : List α → List β) (xs ys : List α) :
    ∃ before after, emitted isEnd shown (xs ++ ys) =
        before ++ shown (openLine isEnd xs ++ firstLine isEnd ys) ++ after ∧
      emitted isEnd shown xs ++ emitted isEnd shown ys =
        before ++ (shown (openLine isEnd xs) ++ shown (firstLine isEnd ys)) ++ after := by
  refine ⟨(completeLines isEnd xs).flatMap shown, (moreLines isEnd ys).flatMap shown, ?_, ?_⟩
  · rw [emitted, pieces_append, List.flatMap_append, List.flatMap_cons, List.append_assoc]
  · rw [emitted, emitted, pieces_eq ys, pieces, List.flatMap_append, List.flatMap_cons]
    simp

theorem shown_parts_iff (h : Shows shown) (front back : List α) :
    (shown (front ++ back)).length ≤ (shown front).length + (shown back).length ∧
      (shown front = [] ∨ shown back = [] →
        shown (front ++ back) = shown front ++ shown back) ∧
      ((shown (front ++ back)).length = (shown front).length + (shown back).length →
        shown front = [] ∨ shown back = []) := by
  by_cases hfront : shown front = []
  · simp [hfront, h.left front back hfront]
  · by_cases hback : shown back = []
    · simp [hback, h.right front back hback]
    · have hshort := h.short (front ++ back)
      have hpos := List.length_pos_of_ne_nil hfront
      have hpos' := List.length_pos_of_ne_nil hback
      refine ⟨by omega, fun hor => ?_, fun heq => by omega⟩
      exact absurd hor (not_or.mpr ⟨hfront, hback⟩)

theorem emitted_cut (isEnd : α → Bool) (h : Shows shown) (xs ys : List α) :
    (emitted isEnd shown (xs ++ ys)).length ≤
        (emitted isEnd shown xs).length + (emitted isEnd shown ys).length ∧
      (shown (openLine isEnd xs) = [] ∨ shown (firstLine isEnd ys) = [] →
        emitted isEnd shown (xs ++ ys) = emitted isEnd shown xs ++ emitted isEnd shown ys) ∧
      ((emitted isEnd shown (xs ++ ys)).length =
          (emitted isEnd shown xs).length + (emitted isEnd shown ys).length →
        shown (openLine isEnd xs) = [] ∨ shown (firstLine isEnd ys) = []) := by
  obtain ⟨before, after, hwhole, hparts⟩ := emitted_append isEnd shown xs ys
  obtain ⟨hle, hsame, hboth⟩ :=
    shown_parts_iff h (openLine isEnd xs) (firstLine isEnd ys)
  have hlength := congrArg List.length hparts
  have hlength' := congrArg List.length hwhole
  simp only [List.length_append] at hlength hlength'
  refine ⟨by omega, fun hor => ?_, fun heq => hboth (by omega)⟩
  rw [hwhole, hparts, hsame hor]

theorem length_emitted_le (isEnd : α → Bool) (h : Shows shown) (chunks : List (List α)) :
    (emitted isEnd shown chunks.flatten).length ≤
      (chunks.flatMap (emitted isEnd shown)).length := by
  induction chunks with
  | nil => simp [emitted, pieces, completeLines, openLine, h.empty]
  | cons chunk after ih =>
      obtain ⟨hle, -, -⟩ := emitted_cut isEnd h chunk after.flatten
      rw [List.flatten_cons, List.flatMap_cons, List.length_append]
      omega

/-- The chunks show what the whole shows exactly when they keep lines whole. -/
theorem emitted_chunks_iff (isEnd : α → Bool) (h : Shows shown) (chunks : List (List α)) :
    chunks.flatMap (emitted isEnd shown) = emitted isEnd shown chunks.flatten ↔
      WholeLines isEnd shown chunks := by
  induction chunks with
  | nil => simp [emitted, pieces, completeLines, openLine, h.empty, WholeLines]
  | cons chunk after ih =>
      obtain ⟨hle, hsame, hboth⟩ := emitted_cut isEnd h chunk after.flatten
      have hrest := length_emitted_le isEnd h after
      rw [List.flatten_cons, List.flatMap_cons, WholeLines, ← ih]
      constructor
      · intro heq
        have hlength := congrArg List.length heq
        rw [List.length_append] at hlength
        have hcut := hboth (by omega)
        refine ⟨hcut, ?_⟩
        rw [hsame hcut] at heq
        exact List.append_cancel_left heq
      · rintro ⟨hcut, heq⟩
        rw [heq, hsame hcut]

end Shown

/-! ## Editing a file line by line -/

/-- The lines of a file, the last one also without its mark. -/
def allLines (isEnd : α → Bool) (xs : List α) : List (List α) :=
  completeLines isEnd xs ++ if openLine isEnd xs = [] then [] else [openLine isEnd xs]

/-- Every line is replaced; a missing last mark stays missing. -/
def mapLines (isEnd : α → Bool) (mark : α) (f : List α → List α) (xs : List α) : List α :=
  (completeLines isEnd xs).flatMap (fun line => f line ++ [mark]) ++
    if openLine isEnd xs = [] then [] else f (openLine isEnd xs)

theorem clean_of_mem_allLines {xs line : List α} (h : line ∈ allLines isEnd xs) :
    ∀ x ∈ line, isEnd x = false := by
  rcases List.mem_append.mp h with hcomplete | hopen
  · clear h
    induction xs generalizing line with
    | nil => cases hcomplete
    | cons y rest ih =>
        rw [completeLines] at hcomplete
        cases hy : isEnd y with
        | true =>
            rw [hy, if_pos rfl] at hcomplete
            rcases List.mem_cons.mp hcomplete with rfl | hrest
            · simp
            · exact ih hrest
        | false =>
            rw [hy, if_neg (by simp)] at hcomplete
            cases hlines : completeLines isEnd rest with
            | nil => simp [hlines, extendHead] at hcomplete
            | cons first more =>
                rw [hlines, extendHead] at hcomplete
                rcases List.mem_cons.mp hcomplete with rfl | hmore
                · simpa [hy] using ih (by rw [hlines]; exact List.mem_cons_self)
                · exact ih (by rw [hlines]; exact List.mem_cons_of_mem first hmore)
  · split_ifs at hopen with hnil
    · cases hopen
    · obtain rfl := List.mem_singleton.mp hopen
      exact completeLines_eq_nil_iff.mp (completeLines_openLine xs)

theorem clean_of_completeLines_nil {xs : List α} (h : ∀ x ∈ xs, isEnd x = false) :
    completeLines isEnd xs = [] ∧ openLine isEnd xs = xs := by
  have hnil := completeLines_eq_nil_iff.mpr h
  exact ⟨hnil, openLine_of_completeLines_nil hnil⟩

theorem lines_flatMap_mark {mark : α} (hmark : isEnd mark = true) {lines : List (List α)}
    (hclean : ∀ line ∈ lines, ∀ x ∈ line, isEnd x = false) (rest : List α) :
    completeLines isEnd (lines.flatMap (fun line => line ++ [mark]) ++ rest) =
        lines ++ completeLines isEnd rest ∧
      openLine isEnd (lines.flatMap (fun line => line ++ [mark]) ++ rest) =
        openLine isEnd rest := by
  induction lines with
  | nil => exact ⟨rfl, rfl⟩
  | cons line lines ih =>
      obtain ⟨hlines, hopen⟩ := ih fun l hl => hclean l (List.mem_cons_of_mem line hl)
      have hsplit : (line :: lines).flatMap (fun line => line ++ [mark]) ++ rest =
          line ++ mark :: (lines.flatMap (fun line => line ++ [mark]) ++ rest) := by simp
      rw [hsplit, completeLines_line (hclean line List.mem_cons_self) hmark, hlines,
        openLine_line hmark, hopen]
      exact ⟨rfl, rfl⟩

theorem allLines_mapLines {mark : α} (hmark : isEnd mark = true) {f : List α → List α}
    {xs : List α} (hclean : ∀ line ∈ allLines isEnd xs, ∀ x ∈ f line, isEnd x = false)
    (hopen : openLine isEnd xs ≠ [] → f (openLine isEnd xs) ≠ []) :
    allLines isEnd (mapLines isEnd mark f xs) = (allLines isEnd xs).map f := by
  have hcomplete : ∀ line ∈ (completeLines isEnd xs).map f, ∀ x ∈ line, isEnd x = false := by
    intro line hline
    obtain ⟨source, hsource, rfl⟩ := List.mem_map.mp hline
    exact hclean source (List.mem_append_left _ hsource)
  have hmap : (completeLines isEnd xs).flatMap (fun line => f line ++ [mark]) =
      ((completeLines isEnd xs).map f).flatMap (fun line => line ++ [mark]) := by
    rw [List.flatMap_map]
  rw [mapLines, hmap]
  by_cases hnil : openLine isEnd xs = []
  · obtain ⟨hlines, hlast⟩ := lines_flatMap_mark hmark hcomplete []
    rw [if_pos hnil, allLines, hlines, hlast, allLines, if_pos hnil]
    simp [completeLines, openLine]
  · obtain ⟨hlines, hlast⟩ := lines_flatMap_mark hmark hcomplete (f (openLine isEnd xs))
    have hfree := clean_of_completeLines_nil
      (hclean (openLine isEnd xs) (List.mem_append_right _ (by simp [hnil])))
    rw [if_neg hnil, allLines, hlines, hlast, hfree.1, hfree.2, if_neg (hopen hnil), allLines,
      if_neg hnil]
    simp

/-- A marked line behind a file that ends in a mark. -/
theorem allLines_append_line {mark : α} (hmark : isEnd mark = true) {xs line : List α}
    (hopen : openLine isEnd xs = []) (hline : ∀ x ∈ line, isEnd x = false) :
    allLines isEnd (xs ++ (line ++ [mark])) = allLines isEnd xs ++ [line] := by
  unfold allLines
  rw [completeLines_append, openLine_append, hopen, List.nil_append,
    completeLines_line hline hmark, openLine_line hmark]
  simp [completeLines, openLine]

/-! ## Two sources at once -/

/-- The third list has the elements of the other two, each in its order. -/
inductive Interleaves : List α → List α → List α → Prop
  | nil : Interleaves [] [] []
  | left {xs ys zs : List α} (x : α) (h : Interleaves xs ys zs) :
      Interleaves (x :: xs) ys (x :: zs)
  | right {xs ys zs : List α} (y : α) (h : Interleaves xs ys zs) :
      Interleaves xs (y :: ys) (y :: zs)

namespace Interleaves

variable {xs ys zs : List α}

theorem of_left (xs : List α) : Interleaves xs [] xs := by
  induction xs with
  | nil => exact .nil
  | cons x rest ih => exact .left x ih

theorem of_right (ys : List α) : Interleaves [] ys ys := by
  induction ys with
  | nil => exact .nil
  | cons y rest ih => exact .right y ih

theorem append_left (h : Interleaves xs ys zs) (more : List α) :
    Interleaves (xs ++ more) ys (zs ++ more) := by
  induction h with
  | nil => exact of_left more
  | left x _ ih => exact .left x ih
  | right y _ ih => exact .right y ih

theorem append_right (h : Interleaves xs ys zs) (more : List α) :
    Interleaves xs (ys ++ more) (zs ++ more) := by
  induction h with
  | nil => exact of_right more
  | left x _ ih => exact .left x ih
  | right y _ ih => exact .right y ih

theorem length (h : Interleaves xs ys zs) : zs.length = xs.length + ys.length := by
  induction h with
  | nil => rfl
  | left x _ ih =>
      rw [List.length_cons, List.length_cons, ih]
      exact Nat.add_right_comm _ _ 1
  | right y _ ih =>
      rw [List.length_cons, List.length_cons, ih]
      rfl

theorem mem (h : Interleaves xs ys zs) {x : α} (hx : x ∈ zs) : x ∈ xs ∨ x ∈ ys := by
  induction h with
  | nil => cases hx
  | left y _ ih =>
      rcases List.mem_cons.mp hx with rfl | hrest
      · exact Or.inl List.mem_cons_self
      · exact (ih hrest).imp_left (List.mem_cons_of_mem y)
  | right y _ ih =>
      rcases List.mem_cons.mp hx with rfl | hrest
      · exact Or.inr List.mem_cons_self
      · exact (ih hrest).imp_right (List.mem_cons_of_mem y)

end Interleaves

end OpticsAgent.Lib
