import Mathlib
import OpticsAgent.Ecma.Coercion
import OpticsAgent.Utility.Canonical

/-!
`canonicalize` on objects that are shared or circular. The objects of a heap
have identities, `seen` is a set of them that is changed in place, and a visit
ends with a value or with a `TypeError`. Every visit leaves the set as it found
it, so the set is the path to the object being visited: an object that is met
on its own path lies on a cycle, and a heap without one is walked as the tree
it unfolds to.
-/

namespace OpticsAgent.Utility

open OpticsAgent.Ecma

/-- Values that are not objects. -/
inductive Primitive where
  | undefined
  | null
  | bool (b : Bool)
  | num (x : Number)
  | str (s : JsString)

def Primitive.toValue : Primitive → JsValue
  | undefined => .undefined
  | null => .null
  | bool b => .bool b
  | num x => .num x
  | str s => .str s

/-- A value in a heap whose objects have the identities `A`. -/
inductive HeapValue (A : Type*) where
  | prim (p : Primitive)
  | ref (a : A)

/-- An array or a plain object, without `toJSON`. -/
inductive HeapObject (A : Type*) where
  | arr (items : List (HeapValue A))
  | obj (props : Props (HeapValue A))

abbrev Heap (A : Type*) := A → HeapObject A

def circularReferences : JsError :=
  .typeError (js "Cannot canonicalize a value with circular references.")

/-! ## Normalization -/

/-- A computation that may change `seen` and may throw; `none` when the fuel
runs out. -/
abbrev Visit (A α : Type*) := Finset A → Option (Except JsError α × Finset A)

namespace Heap

variable {A α β : Type*}

def andThen (visit : Visit A α) (next : α → Visit A β) : Visit A β := fun seen =>
  match visit seen with
  | none => none
  | some (.error e, seen') => some (.error e, seen')
  | some (.ok x, seen') => next x seen'

/-- `value.map(element => normalize(element, seen))`. -/
def normalizeItems (visit : HeapValue A → Visit A JsValue) :
    List (HeapValue A) → Visit A (List JsValue)
  | [] => fun seen => some (.ok [], seen)
  | v :: rest => andThen (visit v) fun x => andThen (normalizeItems visit rest) fun xs seen =>
      some (.ok (x :: xs), seen)

/-- The loop over the sorted keys. -/
def assignEntries (visit : HeapValue A → Visit A JsValue) :
    Props (HeapValue A) → Props JsValue → Visit A (Props JsValue)
  | [], sorted => fun seen => some (.ok sorted, seen)
  | (_, .prim .undefined) :: rest, sorted => assignEntries visit rest sorted
  | (k, v) :: rest, sorted => andThen (visit v) fun x =>
      assignEntries visit rest (assign sorted k x)

variable (heap : Heap A)

def normalizeObject (visit : HeapValue A → Visit A JsValue) : HeapObject A → Visit A JsValue
  | .arr items => andThen (normalizeItems visit items) fun xs seen => some (.ok (.arr xs), seen)
  | .obj props => andThen (assignEntries visit (sortByKey props) []) fun sorted seen =>
      some (.ok (.obj sorted), seen)

/-- The object is taken out of `seen` again whether its visit throws or not. -/
def normalize [DecidableEq A] : ℕ → HeapValue A → Visit A JsValue
  | 0, _ => fun _ => none
  | _ + 1, .prim p => fun seen => some (.ok p.toValue, seen)
  | fuel + 1, .ref a => fun seen =>
      if a ∈ seen then some (.error circularReferences, seen)
      else (normalizeObject (normalize fuel) (heap a) (insert a seen)).map fun result =>
        (result.1, result.2.erase a)

def canonicalize [DecidableEq A] (fuel : ℕ) (root : HeapValue A) :
    Option (Except JsError JsString) :=
  (normalize heap fuel root ∅).map fun result =>
    result.1.map fun value => value.stringify.getD (js "null")

/-! ## Cycles and unfoldings -/

/-- The elements of an array, the values of the defined own keys of an object. -/
def children : HeapObject A → List (HeapValue A)
  | .arr items => items
  | .obj props => props.map Prod.snd

def Edge (a b : A) : Prop := .ref b ∈ children (heap a)

/-- A cycle can be reached from the value. -/
def CycleFrom (v : HeapValue A) : Prop :=
  ∃ a c, v = .ref a ∧ Relation.ReflTransGen (Edge heap) a c ∧ Relation.TransGen (Edge heap) c c

mutual

/-- The tree is what the value looks like when nothing tells a shared object
from equal copies. -/
def IsUnfolding : JsValue → HeapValue A → Prop
  | .arr items, v => ∃ a values, v = .ref a ∧ heap a = .arr values ∧ ItemsUnfold items values
  | .obj props, v => ∃ a entries, v = .ref a ∧ heap a = .obj entries ∧ PropsUnfold props entries
  | t, v => ∃ p, v = .prim p ∧ t = p.toValue

def ItemsUnfold : List JsValue → List (HeapValue A) → Prop
  | [], [] => True
  | t :: items, v :: values => IsUnfolding t v ∧ ItemsUnfold items values
  | _, _ => False

def PropsUnfold : List (JsString × JsValue) → Props (HeapValue A) → Prop
  | [], [] => True
  | (k, t) :: props, (k', v) :: entries => (k = k' ∧ IsUnfolding t v) ∧ PropsUnfold props entries
  | _, _ => False

end

/-! ## The tree of a value -/

variable {heap : Heap A}

theorem itemsUnfold_iff (items : List JsValue) (values : List (HeapValue A)) :
    ItemsUnfold heap items values ↔ List.Forall₂ (IsUnfolding heap) items values := by
  induction items generalizing values with
  | nil => cases values <;> simp [ItemsUnfold]
  | cons t items ih =>
      cases values with
      | nil => simp [ItemsUnfold]
      | cons v values => rw [ItemsUnfold, List.forall₂_cons, ih]

theorem propsUnfold_iff (props : List (JsString × JsValue)) (entries : Props (HeapValue A)) :
    PropsUnfold heap props entries ↔
      List.Forall₂ (fun p q => p.1 = q.1 ∧ IsUnfolding heap p.2 q.2) props entries := by
  induction props generalizing entries with
  | nil => cases entries <;> simp [PropsUnfold]
  | cons p props ih =>
      cases entries with
      | nil => simp [PropsUnfold]
      | cons q entries => rw [PropsUnfold, List.forall₂_cons, ih]

theorem isUnfolding_prim_iff {t : JsValue} {p : Primitive} :
    IsUnfolding heap t (.prim p) ↔ t = p.toValue := by
  cases t <;> cases p <;> simp [IsUnfolding, Primitive.toValue]

theorem isUnfolding_undefined_iff {v : HeapValue A} :
    IsUnfolding heap .undefined v ↔ v = .prim .undefined := by
  constructor
  · rintro ⟨p, rfl, hp⟩
    cases p <;> simp_all [Primitive.toValue]
  · rintro rfl
    exact isUnfolding_prim_iff.mpr rfl

theorem isUnfolding_arr {a : A} {items : List JsValue} {values : List (HeapValue A)}
    (ha : heap a = .arr values) (h : ItemsUnfold heap items values) :
    IsUnfolding heap (.arr items) (.ref a) := by
  rw [IsUnfolding]
  exact ⟨a, values, rfl, ha, h⟩

theorem isUnfolding_obj {a : A} {props : List (JsString × JsValue)}
    {entries : Props (HeapValue A)} (ha : heap a = .obj entries)
    (h : PropsUnfold heap props entries) : IsUnfolding heap (.obj props) (.ref a) := by
  rw [IsUnfolding]
  exact ⟨a, entries, rfl, ha, h⟩

/-- The tree of an object, read off the object. -/
theorem isUnfolding_ref_iff {t : JsValue} {a : A} :
    IsUnfolding heap t (.ref a) ↔ match heap a with
      | .arr values => ∃ items, t = .arr items ∧ ItemsUnfold heap items values
      | .obj entries => ∃ props, t = .obj props ∧ PropsUnfold heap props entries := by
  cases t with
  | arr items => cases ha : heap a <;> simp [IsUnfolding, ha]
  | obj props => cases ha : heap a <;> simp [IsUnfolding, ha]
  | _ => cases ha : heap a <;> simp [IsUnfolding]

/-- A value has at most one unfolding. -/
theorem isUnfolding_unique {t t' : JsValue} {v : HeapValue A} (h : IsUnfolding heap t v)
    (h' : IsUnfolding heap t' v) : t = t' := by
  induction t using JsValue.ind generalizing t' v with
  | harr items ih =>
      obtain ⟨a, values, rfl, ha, hitems⟩ := h
      rw [isUnfolding_ref_iff, ha] at h'
      obtain ⟨items', rfl, hitems'⟩ := h'
      rw [itemsUnfold_iff] at hitems hitems'
      congr 1
      clear ha
      induction hitems generalizing items' with
      | nil =>
          cases hitems'
          rfl
      | cons hv _ ihrest =>
          cases hitems' with
          | cons hv' hrest' =>
              rw [ih _ List.mem_cons_self hv hv',
                ihrest (fun x hx => ih x (List.mem_cons_of_mem _ hx)) _ hrest']
  | hobj props ih =>
      obtain ⟨a, entries, rfl, ha, hprops⟩ := h
      rw [isUnfolding_ref_iff, ha] at h'
      obtain ⟨props', rfl, hprops'⟩ := h'
      rw [propsUnfold_iff] at hprops hprops'
      congr 1
      clear ha
      induction hprops generalizing props' with
      | nil =>
          cases hprops'
          rfl
      | cons hv _ ihrest =>
          cases hprops' with
          | cons hv' hrest' =>
              rw [Prod.ext (hv.1.trans hv'.1.symm) (ih _ List.mem_cons_self hv.2 hv'.2),
                ihrest (fun x hx => ih x (List.mem_cons_of_mem _ hx)) _ hrest']
  | hundefined | hnull | hbool | hnum | hstr | hdate =>
      obtain ⟨p, rfl, hp⟩ := h
      rw [hp]
      exact (isUnfolding_prim_iff.mp h').symm

/-! ## Cycles -/

private theorem exists_left_of_mem {R : α → β → Prop} {xs : List α} {ys : List β}
    (h : List.Forall₂ R xs ys) {y : β} (hy : y ∈ ys) : ∃ x ∈ xs, R x y := by
  induction h with
  | nil => cases hy
  | cons hhead _ ih =>
      rcases List.mem_cons.mp hy with rfl | hrest
      · exact ⟨_, List.mem_cons_self, hhead⟩
      · obtain ⟨x, hx, hxy⟩ := ih hrest
        exact ⟨x, List.mem_cons_of_mem _ hx, hxy⟩

private theorem eq_map_of_forall₂ {R : α → β → Prop} {xs : List α} {ys : List β} {f : β → α}
    (h : List.Forall₂ R xs ys) (hf : ∀ x, ∀ y ∈ ys, R x y → x = f y) : xs = ys.map f := by
  induction h with
  | nil => rfl
  | cons hhead _ ih =>
      have hfirst := hf _ _ List.mem_cons_self hhead
      have hrest := ih fun x y hy => hf x y (List.mem_cons_of_mem _ hy)
      rw [List.map_cons, hfirst, hrest]

/-- From a value with an unfolding every path ends: by induction on the tree. -/
theorem acc_of_isUnfolding {t : JsValue} {a : A} (h : IsUnfolding heap t (.ref a)) :
    Acc (Function.swap (Edge heap)) a := by
  induction t using JsValue.ind generalizing a with
  | harr items ih =>
      obtain ⟨_, values, ⟨⟩, ha, hitems⟩ := h
      rw [itemsUnfold_iff] at hitems
      apply Acc.intro
      intro b hedge
      rw [Function.swap, Edge, ha] at hedge
      obtain ⟨x, hx, hunfolds⟩ := exists_left_of_mem hitems hedge
      exact ih x hx hunfolds
  | hobj props ih =>
      obtain ⟨_, entries, ⟨⟩, ha, hprops⟩ := h
      rw [propsUnfold_iff] at hprops
      apply Acc.intro
      intro b hedge
      rw [Function.swap, Edge, ha] at hedge
      obtain ⟨q, hq, hb⟩ := List.mem_map.mp hedge
      obtain ⟨x, hx, -, hunfolds⟩ := exists_left_of_mem hprops hq
      rw [hb] at hunfolds
      exact ih x hx hunfolds
  | hundefined | hnull | hbool | hnum | hstr | hdate =>
      obtain ⟨p, hp, -⟩ := h
      cases hp

theorem not_transGen_of_acc {r : A → A → Prop} {a : A} (h : Acc (Function.swap r) a) :
    ¬ Relation.TransGen r a a := by
  intro hcycle
  have hacc := h.transGen
  have hswap : Relation.TransGen (Function.swap r) a a := Relation.transGen_swap.mpr hcycle
  clear h hcycle
  induction hacc with
  | intro x _ ih => exact ih x hswap hswap

theorem acc_of_reflTransGen {r : A → A → Prop} {a c : A} (h : Relation.ReflTransGen r a c)
    (ha : Acc (Function.swap r) a) : Acc (Function.swap r) c := by
  induction h with
  | refl => exact ha
  | tail _ hedge ih => exact ih.inv hedge

theorem not_cycleFrom_of_isUnfolding {t : JsValue} {v : HeapValue A}
    (h : IsUnfolding heap t v) : ¬ CycleFrom heap v := by
  rintro ⟨a, c, rfl, hreach, hcycle⟩
  exact not_transGen_of_acc (acc_of_reflTransGen hreach (acc_of_isUnfolding h)) hcycle

/-! ## Visits -/

/-- A visit that leaves `seen` as it was. It runs out of fuel only if `Short`,
throws only if `Bad`, and ends with a value that is `Good`. -/
inductive Meets (seen : Finset A) (Short Bad : Prop) (Good : α → Prop) :
    Option (Except JsError α × Finset A) → Prop
  | exhausted (h : Short) : Meets seen Short Bad Good none
  | circular (h : Bad) : Meets seen Short Bad Good (some (.error circularReferences, seen))
  | value (x : α) (h : Good x) : Meets seen Short Bad Good (some (.ok x, seen))

section Meets

variable {seen : Finset A} {Short Short' Bad Bad' : Prop} {Good : α → Prop} {Good' : β → Prop}

theorem Meets.andThen {visit : Visit A α} {next : α → Visit A β}
    (h : Meets seen Short Bad Good (visit seen))
    (hnext : ∀ x, Good x → Meets seen Short Bad Good' (next x seen)) :
    Meets seen Short Bad Good' (andThen visit next seen) := by
  unfold Heap.andThen
  generalize visit seen = result at h
  cases h with
  | exhausted h => exact .exhausted h
  | circular h => exact .circular h
  | value x h => exact hnext x h

theorem Meets.mono {result : Option (Except JsError α × Finset A)}
    (h : Meets seen Short Bad Good result) (hshort : Short → Short') (hbad : Bad → Bad') :
    Meets seen Short' Bad' Good result := by
  cases h with
  | exhausted h => exact .exhausted (hshort h)
  | circular h => exact .circular (hbad h)
  | value x h => exact .value x h

theorem Meets.weaken {Good'' : α → Prop} {result : Option (Except JsError α × Finset A)}
    (h : Meets seen Short Bad Good result) (hgood : ∀ x, Good x → Good'' x) :
    Meets seen Short Bad Good'' result := by
  cases h with
  | exhausted h => exact .exhausted h
  | circular h => exact .circular h
  | value x h => exact .value x (hgood x h)

variable {visit : HeapValue A → Visit A JsValue}

theorem assignEntries_cons {k : JsString} {v : HeapValue A} {rest : Props (HeapValue A)}
    {sorted : Props JsValue} (h : v ≠ .prim .undefined) :
    assignEntries visit ((k, v) :: rest) sorted =
      andThen (visit v) fun x => assignEntries visit rest (assign sorted k x) := by
  rw [assignEntries]
  exact h

/-- What a visit gives for a value: the normal form of the value's tree. -/
def Normal (heap : Heap A) (v : HeapValue A) (x : JsValue) : Prop :=
  ∃ t, IsUnfolding heap t v ∧ x = Utility.normalize t

theorem Meets.normalizeItems {values : List (HeapValue A)}
    (h : ∀ v ∈ values, Meets seen Short Bad (Normal heap v) (visit v seen)) :
    Meets seen Short Bad
      (fun xs => ∃ items, ItemsUnfold heap items values ∧ xs = Utility.normalizeItems items)
      (normalizeItems visit values seen) := by
  induction values with
  | nil => exact .value [] ⟨[], trivial, rfl⟩
  | cons v rest ih =>
      obtain ⟨hv, hrest⟩ := List.forall_mem_cons.mp h
      apply hv.andThen
      rintro x ⟨t, ht, rfl⟩
      apply (ih hrest).andThen
      rintro xs ⟨items, hitems, rfl⟩
      exact .value _ ⟨t :: items, ⟨ht, hitems⟩, rfl⟩

theorem Meets.assignEntries {entries : Props (HeapValue A)} {sorted : Props JsValue}
    (h : ∀ p ∈ entries, Meets seen Short Bad (Normal heap p.2) (visit p.2 seen)) :
    Meets seen Short Bad
      (fun filled => ∃ props, PropsUnfold heap props entries ∧
        filled = (normalizeProps props).foldl (fun sorted p => assign sorted p.1 p.2) sorted)
      (assignEntries visit entries sorted seen) := by
  induction entries generalizing sorted with
  | nil => exact .value sorted ⟨[], trivial, rfl⟩
  | cons p rest ih =>
      obtain ⟨k, v⟩ := p
      obtain ⟨hv, hrest⟩ := List.forall_mem_cons.mp h
      by_cases hdefined : v = .prim .undefined
      · subst hdefined
        rw [Heap.assignEntries]
        refine (ih hrest).weaken ?_
        rintro filled ⟨props, hprops, rfl⟩
        exact ⟨(k, .undefined) :: props, ⟨⟨rfl, isUnfolding_prim_iff.mpr rfl⟩, hprops⟩, rfl⟩
      · rw [assignEntries_cons hdefined]
        apply hv.andThen
        rintro x ⟨t, ht, rfl⟩
        refine (ih hrest).weaken ?_
        rintro filled ⟨props, hprops, rfl⟩
        have hkept : t ≠ .undefined := by
          rintro rfl
          exact hdefined (isUnfolding_undefined_iff.mp ht)
        refine ⟨(k, t) :: props, ⟨⟨rfl, ht⟩, hprops⟩, ?_⟩
        rw [normalizeProps_cons props hkept, List.foldl_cons]

/-- The keys are visited in their order; the tree has them as the object has. -/
theorem exists_propsUnfold {entries : Props (HeapValue A)} {props : List (JsString × JsValue)}
    (h : PropsUnfold heap props (sortByKey entries)) :
    ∃ props', PropsUnfold heap props' entries ∧ props = sortByKey props' := by
  rw [propsUnfold_iff] at h
  have htree (v : HeapValue A) : ∃ t, ∀ p ∈ sortByKey entries, p.2 = v →
      IsUnfolding heap t v := by
    by_cases hv : ∃ p ∈ sortByKey entries, p.2 = v
    · obtain ⟨p, hp, rfl⟩ := hv
      obtain ⟨q, -, -, hq⟩ := exists_left_of_mem h hp
      exact ⟨q.2, fun _ _ _ => hq⟩
    · exact ⟨.undefined, fun p hp hpv => absurd ⟨p, hp, hpv⟩ hv⟩
  choose tree htree using htree
  refine ⟨entries.map fun p => (p.1, tree p.2), ?_, ?_⟩
  · rw [propsUnfold_iff, List.forall₂_map_left_iff, List.forall₂_same]
    intro p hp
    exact ⟨rfl, htree p.2 p ((perm_sortByKey entries).mem_iff.mpr hp) rfl⟩
  · rw [← sortByKey_map]
    apply eq_map_of_forall₂ h
    rintro ⟨k, t⟩ q hq ⟨rfl, ht⟩
    have hsame : t = tree q.2 := isUnfolding_unique ht (htree q.2 q hq rfl)
    rw [hsame]

theorem normalizeProps_eq (props : List (JsString × JsValue)) :
    normalizeProps props =
      (props.filter fun p => p.2.toJson.isSome).map fun p => (p.1, Utility.normalize p.2) := by
  induction props with
  | nil => rfl
  | cons p rest ih =>
      obtain ⟨k, v⟩ := p
      by_cases hv : v = .undefined
      · subst hv
        exact ih
      · have hkept : v.toJson.isSome = true := by
          rw [Option.isSome_iff_ne_none, Ne, JsValue.toJson_eq_none_iff]
          exact hv
        rw [normalizeProps_cons rest hv, ih, List.filter_cons, if_pos hkept, List.map_cons]

theorem normalizeProps_sortByKey (props : List (JsString × JsValue)) :
    normalizeProps (sortByKey props) = sortByKey (normalizeProps props) := by
  rw [normalizeProps_eq, normalizeProps_eq, sortByKey_filter, sortByKey_map]

theorem Meets.normalizeObject {a : A}
    (h : ∀ v ∈ children (heap a), Meets seen Short Bad (Normal heap v) (visit v seen)) :
    Meets seen Short Bad (Normal heap (.ref a)) (normalizeObject visit (heap a) seen) := by
  cases ha : heap a with
  | arr values =>
      rw [ha] at h
      apply (Meets.normalizeItems h).andThen
      rintro xs ⟨items, hitems, rfl⟩
      exact .value _ ⟨.arr items, isUnfolding_arr ha hitems, rfl⟩
  | obj entries =>
      rw [ha] at h
      have hsorted : ∀ p ∈ sortByKey entries,
          Meets seen Short Bad (Normal heap p.2) (visit p.2 seen) := by
        intro p hp
        have hmem := (perm_sortByKey entries).mem_iff.mp hp
        exact h p.2 (List.mem_map.mpr ⟨p, hmem, rfl⟩)
      apply (Meets.assignEntries hsorted).andThen
      rintro filled ⟨props, hprops, rfl⟩
      obtain ⟨props', hprops', rfl⟩ := exists_propsUnfold hprops
      refine .value _ ⟨.obj props', isUnfolding_obj ha hprops', ?_⟩
      rw [normalizeProps_sortByKey]
      rfl

end Meets

/-! ## The set is the path -/

theorem card_compl_insert [DecidableEq A] [Fintype A] {seen : Finset A} {a : A}
    (h : a ∉ seen) : ((insert a seen)ᶜ).card < (seenᶜ).card := by
  apply Finset.card_lt_card
  rw [Finset.compl_insert]
  exact Finset.erase_ssubset (Finset.mem_compl.mpr h)

/-- When every object in `seen` has a path to the value, the visit throws only
if a cycle can be reached from it. The induction is on the fuel. -/
theorem meets_normalize [DecidableEq A] [Fintype A] (fuel : ℕ) {v : HeapValue A} {seen : Finset A}
    (hpath : ∀ s ∈ seen, ∀ a, v = .ref a → Relation.TransGen (Edge heap) s a) :
    Meets seen (fuel ≤ (seenᶜ).card) (CycleFrom heap v) (Normal heap v)
      (normalize heap fuel v seen) := by
  induction fuel generalizing v seen with
  | zero => exact .exhausted (Nat.zero_le _)
  | succ fuel ih =>
      cases v with
      | prim p =>
          refine .value p.toValue ⟨p.toValue, isUnfolding_prim_iff.mpr rfl, ?_⟩
          cases p <;> rfl
      | ref a =>
          unfold normalize
          split_ifs with hseen
          · have hcycle : Relation.TransGen (Edge heap) a a := hpath a hseen a rfl
            exact .circular ⟨a, a, rfl, .refl, hcycle⟩
          · have hchildren : ∀ w ∈ children (heap a), Meets (insert a seen)
                (fuel + 1 ≤ (seenᶜ).card) (CycleFrom heap (.ref a)) (Normal heap w)
                (normalize heap fuel w (insert a seen)) := by
              intro w hw
              have hsteps : ∀ s ∈ insert a seen, ∀ b, w = .ref b →
                  Relation.TransGen (Edge heap) s b := by
                rintro s hs b rfl
                rcases Finset.mem_insert.mp hs with rfl | hs
                · exact .single hw
                · exact (hpath s hs a rfl).tail hw
              apply (ih hsteps).mono
              · intro hshort
                exact lt_of_le_of_lt hshort (card_compl_insert hseen)
              · rintro ⟨b, c, rfl, hreach, hcycle⟩
                exact ⟨a, c, rfl, hreach.head hw, hcycle⟩
            have hbody := Meets.normalizeObject hchildren
            generalize normalizeObject (normalize heap fuel) (heap a) (insert a seen) = result
              at hbody
            -- taking the object out again gives the set back, as it was not in it
            have hback : (insert a seen).erase a = seen := Finset.erase_insert hseen
            cases hbody with
            | exhausted h => exact .exhausted h
            | circular h =>
                simp only [Option.map_some, hback]
                exact .circular h
            | value x h =>
                simp only [Option.map_some, hback]
                exact .value x h

end Heap

/-- On every finite heap the walk ends, whatever it meets. It throws if and
only if a cycle can be reached, and otherwise gives the text of the tree the
value unfolds to. -/
theorem canonicalize_graph {A : Type*} [Fintype A] [DecidableEq A] (heap : Heap A)
    (root : HeapValue A) :
    ∃ result, (∀ fuel, Fintype.card A < fuel → heap.canonicalize fuel root = some result) ∧
      (result = .error circularReferences ↔ heap.CycleFrom root) ∧
      (¬ heap.CycleFrom root → ∃ tree, heap.IsUnfolding tree root ∧
        (∀ other, heap.IsUnfolding other root → other = tree) ∧
        result = .ok (canonicalize tree)) := by
  have hmeets (fuel : ℕ) (hfuel : Fintype.card A < fuel) :
      (heap.CycleFrom root ∧
        heap.canonicalize fuel root = some (.error circularReferences)) ∨
      (∃ tree, heap.IsUnfolding tree root ∧
        heap.canonicalize fuel root = some (.ok (canonicalize tree))) := by
    have hempty : ∀ s ∈ (∅ : Finset A), ∀ a, root = .ref a →
        Relation.TransGen heap.Edge s a := by
      intro s hs
      exact absurd hs (Finset.notMem_empty s)
    have hvisit := Heap.meets_normalize fuel hempty
    unfold Heap.canonicalize
    generalize heap.normalize fuel root ∅ = result at hvisit
    cases hvisit with
    | exhausted hshort =>
        rw [Finset.compl_empty, Finset.card_univ] at hshort
        exact absurd hfuel (not_lt.mpr hshort)
    | circular hcycle => exact Or.inl ⟨hcycle, rfl⟩
    | value x hnormal =>
        obtain ⟨tree, htree, rfl⟩ := hnormal
        exact Or.inr ⟨tree, htree, rfl⟩
  rcases hmeets (Fintype.card A + 1) (Nat.lt_succ_self _) with ⟨hcycle, -⟩ | ⟨tree, htree, -⟩
  · refine ⟨.error circularReferences, ?_, iff_of_true rfl hcycle, fun h => absurd hcycle h⟩
    intro fuel hfuel
    rcases hmeets fuel hfuel with ⟨-, hthrown⟩ | ⟨other, hother, -⟩
    · exact hthrown
    · exact absurd hcycle (Heap.not_cycleFrom_of_isUnfolding hother)
  · have hacyclic := Heap.not_cycleFrom_of_isUnfolding htree
    have hunique (other : JsValue) (hother : heap.IsUnfolding other root) : other = tree :=
      Heap.isUnfolding_unique hother htree
    refine ⟨.ok (canonicalize tree), ?_, iff_of_false (by simp) hacyclic,
      fun _ => ⟨tree, htree, hunique, rfl⟩⟩
    intro fuel hfuel
    rcases hmeets fuel hfuel with ⟨hcycle, -⟩ | ⟨other, hother, hresult⟩
    · exact absurd hcycle hacyclic
    · rw [hresult, hunique other hother]

/-- Two siblings that are the same object are no cycle, an object that holds
itself is one. -/
example :
    (Heap.canonicalize (fun a : Fin 2 => if a = 0 then
        .obj [(js "left", .ref 1), (js "right", .ref 1)]
        else .obj [(js "value", .prim (.num (Number.ofInt 1)))]) 3 (.ref 0)).bind
      Except.toOption =
        some (js "\x7b\"left\":\x7b\"value\":1\x7d,\"right\":\x7b\"value\":1\x7d\x7d") ∧
    Heap.canonicalize (fun _ : Fin 1 => .obj [(js "self", .ref 0)]) 2 (.ref 0) =
      some (.error circularReferences) :=
  ⟨by decide +kernel, rfl⟩

end OpticsAgent.Utility
