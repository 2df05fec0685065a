import Mathlib
import OpticsAgent.Lib.Observation
import OpticsAgent.Ecma.Json

/-!
JSON equality. A document is the tree its property names and array positions
span, so objects are unordered maps, arrays are ordered, and numbers are
compared by value.
-/

namespace OpticsAgent.Ecma

open OpticsAgent.Observation

inductive PathStep where
  | key (name : JsString)
  | index (position : ℕ)
  deriving DecidableEq

/-- What is seen at one node of a document. -/
inductive Shape where
  | null
  | bool (b : Bool)
  | num (q : ℚ)
  | str (s : JsString)
  | arr
  | obj
  deriving DecidableEq

namespace Json

def child : Json → PathStep → Option Json
  | .obj props, .key name => ownValue props name
  | .arr items, .index position => items[position]?
  | _, _ => none

def shape : Json → Shape
  | .null => .null
  | .bool b => .bool b
  | .num x => .num x.value
  | .str s => .str s
  | .arr _ => .arr
  | .obj _ => .obj

def tree : Tree Json PathStep Shape where
  child := child
  label := shape

/-- Equality of documents as JSON values. -/
def Same (a b : Json) : Prop := tree.Agree Set.univ a b

theorem agree_leaf {steps : Set PathStep} {a b : Json} (hleaf : ∀ s, a.child s = none)
    (hb : ∀ s, b.child s = none) : tree.Agree steps a b ↔ a.shape = b.shape := by
  rw [Tree.agree_iff]
  constructor
  · exact fun h => h.1
  · intro hshape
    refine ⟨hshape, fun s _ => ?_⟩
    change Option.Rel (tree.Agree steps) (a.child s) (b.child s)
    rw [hleaf, hb]
    exact Option.Rel.none

theorem agree_arr {steps : Set PathStep} (hsteps : ∀ i, PathStep.index i ∈ steps)
    {xs ys : List Json} : tree.Agree steps (.arr xs) (.arr ys) ↔
      List.Forall₂ (tree.Agree steps) xs ys := by
  rw [Tree.agree_iff, List.forall₂_iff_get]
  constructor
  · rintro ⟨-, hchildren⟩
    have hrel (i : ℕ) : Option.Rel (tree.Agree steps) xs[i]? ys[i]? :=
      hchildren (.index i) (hsteps i)
    have hlength : xs.length = ys.length := by
      rcases Nat.lt_trichotomy xs.length ys.length with hlt | heq | hgt
      · have hlast := hrel xs.length
        rw [List.getElem?_eq_none (le_refl _), List.getElem?_eq_getElem hlt] at hlast
        cases hlast
      · exact heq
      · have hlast := hrel ys.length
        rw [List.getElem?_eq_none (le_refl ys.length), List.getElem?_eq_getElem hgt] at hlast
        cases hlast
    refine ⟨hlength, fun i hx hy => ?_⟩
    have hi := hrel i
    rw [List.getElem?_eq_getElem hx, List.getElem?_eq_getElem hy] at hi
    cases hi with
    | some hxy => exact hxy
  · rintro ⟨hlength, hitems⟩
    refine ⟨rfl, fun s _ => ?_⟩
    cases s with
    | key name => exact Option.Rel.none
    | index i =>
        change Option.Rel (tree.Agree steps) xs[i]? ys[i]?
        by_cases hi : i < xs.length
        · rw [List.getElem?_eq_getElem hi, List.getElem?_eq_getElem (hlength ▸ hi)]
          exact Option.Rel.some (hitems i hi (hlength ▸ hi))
        · rw [List.getElem?_eq_none (by omega), List.getElem?_eq_none (by omega)]
          exact Option.Rel.none

theorem agree_obj {steps : Set PathStep} {props props' : List (JsString × Json)} :
    tree.Agree steps (.obj props) (.obj props') ↔
      ∀ k, PathStep.key k ∈ steps →
        Option.Rel (tree.Agree steps) (ownValue props k) (ownValue props' k) := by
  rw [Tree.agree_iff]
  constructor
  · rintro ⟨-, hchildren⟩ k hk
    exact hchildren (.key k) hk
  · intro hprops
    refine ⟨rfl, fun s hs => ?_⟩
    cases s with
    | key name => exact hprops name hs
    | index i => exact Option.Rel.none

end Json

end OpticsAgent.Ecma
