import Mathlib
import OpticsAgent.Ecma.JsonParse

/-!
Printed documents and printed numbers have no control characters, so no newline
either.
-/

namespace OpticsAgent.Ecma

/-- No unit below the space. -/
def Plain (s : JsString) : Prop := ∀ c ∈ s, 32 ≤ c.val

instance : DecidablePred Plain := fun s =>
  decidable_of_iff (s.all fun c => 32 ≤ c.val) (by simp [Plain])

/-- No unit beyond ASCII. -/
def Ascii (s : JsString) : Prop := ∀ c ∈ s, c.val < 128

instance : DecidablePred Ascii := fun s =>
  decidable_of_iff (s.all fun c => c.val < 128) (by simp [Ascii])

theorem plain_append {s t : JsString} : Plain (s ++ t) ↔ Plain s ∧ Plain t :=
  List.forall_mem_append

theorem plain_cons {c : CodeUnit} {s : JsString} : Plain (c :: s) ↔ 32 ≤ c.val ∧ Plain s :=
  List.forall_mem_cons

theorem plain_nil : Plain [] := by
  intro c hc
  cases hc

theorem Plain.no_newline {s : JsString} (h : Plain s) : (10 : CodeUnit) ∉ s := by
  intro hmem
  have hlow := h 10 hmem
  revert hlow
  decide

theorem plain_hex4 (u : CodeUnit) : Plain (hex4 u) := by
  intro c hc
  obtain ⟨d, -, rfl⟩ := List.mem_map.mp hc
  clear hc
  revert d
  decide

/-- A printed number has digits and four other units. -/
theorem forall_mem_literal {P : CodeUnit → Prop} (hdigit : ∀ d, P (digitUnit d))
    (hother : P 43 ∧ P 45 ∧ P 46 ∧ P 101) (lit : Literal) : ∀ c ∈ lit.text, P c := by
  obtain ⟨hplus, hminus, hpoint, he⟩ := hother
  have hdigits (ds : List Digit) : ∀ c ∈ ds.map digitUnit, P c := by
    intro c hc
    obtain ⟨d, -, rfl⟩ := List.mem_map.mp hc
    exact hdigit d
  have hfraction : ∀ c ∈ Literal.fractionText lit.frac, P c := by
    unfold Literal.fractionText
    cases lit.frac with
    | nil => exact fun c hc => absurd hc List.not_mem_nil
    | cons d rest => exact List.forall_mem_cons.mpr ⟨hpoint, hdigits (d :: rest)⟩
  have hexponent : ∀ c ∈ Literal.exponentText lit.exp, P c := by
    unfold Literal.exponentText
    cases lit.exp with
    | none => exact fun c hc => absurd hc List.not_mem_nil
    | some e =>
        refine List.forall_mem_cons.mpr ⟨he, List.forall_mem_cons.mpr ⟨?_, hdigits _⟩⟩
        split_ifs
        · exact hplus
        · exact hminus
  have hunsigned : ∀ c ∈ lit.unsignedText, P c := List.forall_mem_append.mpr
    ⟨List.forall_mem_append.mpr ⟨hdigits _, hfraction⟩, hexponent⟩
  refine List.forall_mem_append.mpr ⟨?_, hunsigned⟩
  split_ifs
  · exact List.forall_mem_singleton.mpr hminus
  · exact fun c hc => absurd hc List.not_mem_nil

theorem plain_literal (lit : Literal) : Plain lit.text :=
  forall_mem_literal (by decide) (by decide) lit

theorem plain_toText (x : Number) : Plain x.toText := by
  cases x with
  | nan => decide
  | infinity neg =>
      cases neg with
      | false => decide
      | true => decide
  | finite x => exact plain_literal _

theorem ascii_literal (lit : Literal) : Ascii lit.text := by
  refine forall_mem_literal ?_ (by simp) lit
  intro d
  simp only [digitUnit]
  omega

theorem ascii_toText (x : Number) : Ascii x.toText := by
  cases x with
  | nan => decide
  | infinity neg =>
      cases neg with
      | false => decide
      | true => decide
  | finite x => exact ascii_literal _

theorem plain_escapeUnit (c : CodeUnit) : Plain (escapeUnit c) := by
  unfold escapeUnit
  split_ifs with h1 h2 h3 h4 h5 h6 h7 h8
  · decide
  · decide
  · decide
  · decide
  · decide
  · decide
  · decide
  · exact plain_cons.mpr ⟨by decide, plain_cons.mpr ⟨by decide, plain_hex4 c⟩⟩
  · simp only [Bool.or_eq_true, decide_eq_true_eq, not_or, not_lt] at h8
    exact plain_cons.mpr ⟨h8.1.1, plain_nil⟩

theorem plain_quoteUnits (inPair : Bool) (s : JsString)
    (hpair : inPair = true → ∀ c, s.head? = some c → isLowSurrogate c = true) :
    Plain (quoteUnits inPair s) := by
  induction s generalizing inPair with
  | nil => exact plain_nil
  | cons c rest ih =>
      have hfree := ih false (by simp)
      unfold quoteUnits
      split_ifs with hin hhigh
      · exact plain_cons.mpr ⟨(surrogate_plain (Or.inr (hpair hin c rfl))).2.2, hfree⟩
      · simp only [Bool.and_eq_true] at hhigh
        refine plain_cons.mpr ⟨(surrogate_plain (Or.inl hhigh.1)).2.2, ih true ?_⟩
        intro _ d hd
        have hlow := hhigh.2
        rw [hd] at hlow
        exact hlow
      · exact plain_append.mpr ⟨plain_escapeUnit c, hfree⟩

theorem plain_quote (s : JsString) : Plain (quote s) := by
  have hbody := plain_quoteUnits false s (by simp)
  exact plain_append.mpr
    ⟨plain_cons.mpr ⟨by decide, hbody⟩, plain_cons.mpr ⟨by decide, plain_nil⟩⟩

theorem plain_print (j : Json) : Plain j.print := by
  have hitems (items : List Json) (h : ∀ x ∈ items, Plain x.print) :
      Plain (Json.printItems items) := by
    induction items with
    | nil => exact plain_cons.mpr ⟨by decide, plain_nil⟩
    | cons x rest ih =>
        obtain ⟨hx, hrest⟩ := List.forall_mem_cons.mp h
        exact plain_append.mpr ⟨plain_cons.mpr ⟨by decide, hx⟩, ih hrest⟩
  have hprops (props : List (JsString × Json)) (h : ∀ p ∈ props, Plain p.2.print) :
      Plain (Json.printProps props) := by
    induction props with
    | nil => exact plain_cons.mpr ⟨by decide, plain_nil⟩
    | cons p rest ih =>
        obtain ⟨hp, hrest⟩ := List.forall_mem_cons.mp h
        have hkey : Plain (44 :: quote p.1) := plain_cons.mpr ⟨by decide, plain_quote p.1⟩
        have hvalue : Plain (58 :: p.2.print) := plain_cons.mpr ⟨by decide, hp⟩
        exact plain_append.mpr ⟨plain_append.mpr ⟨hkey, hvalue⟩, ih hrest⟩
  induction j using Json.ind with
  | hnull => decide
  | hbool b =>
      cases b with
      | false => decide
      | true => decide
  | hnum x => exact plain_literal _
  | hstr s => exact plain_quote s
  | harr items ih =>
      cases items with
      | nil => decide
      | cons x rest =>
          obtain ⟨hx, hrest⟩ := List.forall_mem_cons.mp ih
          exact plain_append.mpr ⟨plain_cons.mpr ⟨by decide, hx⟩, hitems rest hrest⟩
  | hobj props ih =>
      cases props with
      | nil => decide
      | cons p rest =>
          obtain ⟨hp, hrest⟩ := List.forall_mem_cons.mp ih
          have hkey : Plain (123 :: quote p.1) := plain_cons.mpr ⟨by decide, plain_quote p.1⟩
          have hvalue : Plain (58 :: p.2.print) := plain_cons.mpr ⟨by decide, hp⟩
          exact plain_append.mpr ⟨plain_append.mpr ⟨hkey, hvalue⟩, hprops rest hrest⟩

end OpticsAgent.Ecma
