import Mathlib

/-!
Trees seen through paths. A tree type is given by its children under labelled
steps and by a label at every node; two trees agree along a set of steps when
every path of such steps finds the same label in both, or nothing in both.
This is equality of the trees as data, whatever order or representation the
children have.
-/

namespace OpticsAgent.Observation

variable {T S O : Type*}

/-- How nodes are reached and what is seen at them. -/
structure Tree (T S O : Type*) where
  child : T → S → Option T
  label : T → O

namespace Tree

variable (tree : Tree T S O)

def labelAt (t : T) : List S → Option O
  | [] => some (tree.label t)
  | s :: path => (tree.child t s).bind fun t' => labelAt t' path

def Agree (steps : Set S) (a b : T) : Prop :=
  ∀ path : List S, (∀ s ∈ path, s ∈ steps) → tree.labelAt a path = tree.labelAt b path

/-- Both children are absent, or both are there and related. -/
def ChildRel (R : T → T → Prop) (a b : T) (s : S) : Prop :=
  Option.Rel R (tree.child a s) (tree.child b s)

variable {tree} {steps : Set S}

theorem Agree.refl (a : T) : tree.Agree steps a a :=
  fun _ _ => rfl

theorem Agree.symm {a b : T} (h : tree.Agree steps a b) : tree.Agree steps b a :=
  fun path hpath => (h path hpath).symm

theorem Agree.trans {a b c : T} (hab : tree.Agree steps a b) (hbc : tree.Agree steps b c) :
    tree.Agree steps a c :=
  fun path hpath => (hab path hpath).trans (hbc path hpath)

theorem Agree.mono {fewer : Set S} (hsub : fewer ⊆ steps) {a b : T}
    (h : tree.Agree steps a b) : tree.Agree fewer a b :=
  fun path hpath => h path fun s hs => hsub (hpath s hs)

theorem Agree.label_eq {a b : T} (h : tree.Agree steps a b) : tree.label a = tree.label b := by
  have hroot := h [] (by simp)
  exact Option.some.inj hroot

theorem Agree.childRel {a b : T} (h : tree.Agree steps a b) {s : S} (hs : s ∈ steps) :
    tree.ChildRel (tree.Agree steps) a b s := by
  have hchild : ∀ path : List S, (∀ t ∈ path, t ∈ steps) →
      (tree.child a s).bind (tree.labelAt · path) =
        (tree.child b s).bind (tree.labelAt · path) := by
    intro path hpath
    exact h (s :: path) (List.forall_mem_cons.mpr ⟨hs, hpath⟩)
  have hroot := hchild [] (by simp)
  unfold ChildRel
  cases ha : tree.child a s with
  | none =>
      cases hb : tree.child b s with
      | none => exact Option.Rel.none
      | some b' => simp [ha, hb, labelAt] at hroot
  | some a' =>
      cases hb : tree.child b s with
      | none => simp [ha, hb, labelAt] at hroot
      | some b' =>
          apply Option.Rel.some
          intro path hpath
          have hsame := hchild path hpath
          rwa [ha, hb] at hsame

/-- Agreement is the same label and agreeing children. -/
theorem agree_iff {a b : T} : tree.Agree steps a b ↔
    tree.label a = tree.label b ∧ ∀ s ∈ steps, tree.ChildRel (tree.Agree steps) a b s := by
  constructor
  · intro h
    exact ⟨h.label_eq, fun s hs => h.childRel hs⟩
  · rintro ⟨hlabel, hchildren⟩ path hpath
    cases path with
    | nil => exact congrArg some hlabel
    | cons s rest =>
        obtain ⟨hs, hrest⟩ := List.forall_mem_cons.mp hpath
        have hrel := hchildren s hs
        unfold ChildRel at hrel
        rw [labelAt, labelAt]
        generalize tree.child a s = x at hrel
        generalize tree.child b s = y at hrel
        cases hrel with
        | none => rfl
        | some hsub => exact hsub rest hrest

end Tree

end OpticsAgent.Observation
