import Mathlib
import OpticsAgent.Ecma.JsonParse
import OpticsAgent.Ecma.JsonPath

/-!
`canonicalize` of the signing utility, and what its text determines. The
payloads are trees, so the guard against circular references never fires and
is left out. `Json.canonical` is the document the text is printed from; the
text determines exactly the part of a document that is reachable without an
own key `__proto__`.
-/

namespace OpticsAgent.Utility

open OpticsAgent.Ecma OpticsAgent.Observation

variable {α β : Type*}

def protoKey : JsString := js "__proto__"

/-- `sorted[key] = value` on an ordinary object. An assignment to `__proto__`
calls the setter inherited from `Object.prototype` and creates no property. -/
def assign (sorted : Props α) (key : JsString) (value : α) : Props α :=
  if key = protoKey then sorted else setProp sorted key value

/-- The object that is filled by assigning the entries in the order of their
keys. -/
def assignSorted (entries : Props α) : Props α :=
  (sortByKey entries).foldl (fun sorted p => assign sorted p.1 p.2) []

mutual

def normalize : JsValue → JsValue
  | .date none => .null
  | .date (some time) => .str (toISOString time)
  | .arr items => .arr (normalizeItems items)
  | .obj props => .obj (assignSorted (normalizeProps props))
  | v => v

def normalizeItems : List JsValue → List JsValue
  | [] => []
  | x :: rest => normalize x :: normalizeItems rest

/-- The entries that survive `source[key] === undefined`. -/
def normalizeProps : List (JsString × JsValue) → List (JsString × JsValue)
  | [] => []
  | (_, .undefined) :: rest => normalizeProps rest
  | (k, v) :: rest => (k, normalize v) :: normalizeProps rest

end

def canonicalize (value : JsValue) : JsString :=
  (normalize value).stringify.getD (js "null")

/-! ## Assigned objects -/

theorem foldl_assign (entries props : Props α) :
    entries.foldl (fun sorted p => assign sorted p.1 p.2) props =
      (entries.filter fun p => p.1 ≠ protoKey).foldl (fun sorted p => setProp sorted p.1 p.2)
        props := by
  induction entries generalizing props with
  | nil => rfl
  | cons p rest ih =>
      rw [List.foldl_cons, ih]
      rcases eq_or_ne p.1 protoKey with hproto | hother
      · rw [assign, if_pos hproto, List.filter_cons_of_neg (by simp [hproto])]
      · rw [assign, if_neg hother, List.filter_cons_of_pos (by simp [hother]), List.foldl_cons]

theorem assignSorted_eq (entries : Props α) :
    assignSorted entries = buildProps ((sortByKey entries).filter fun p => p.1 ≠ protoKey) :=
  foldl_assign _ _

theorem ownOrder_assignSorted (entries : Props α) : OwnOrder (assignSorted entries) := by
  rw [assignSorted_eq]
  exact ownOrder_buildProps _

theorem mem_of_mem_assignSorted {entries : Props α} {q : JsString × α}
    (h : q ∈ assignSorted entries) : q ∈ entries := by
  rw [assignSorted_eq] at h
  have hmem := List.mem_filter.mp (mem_of_mem_buildProps h)
  exact (perm_sortByKey entries).mem_iff.mp hmem.1

theorem assignSorted_map (f : α → β) (entries : Props α) :
    assignSorted (entries.map fun p => (p.1, f p.2)) =
      (assignSorted entries).map fun p => (p.1, f p.2) := by
  rw [assignSorted_eq, assignSorted_eq, ← sortByKey_map, List.filter_map, ← buildProps_map]
  rfl

/-- With distinct keys, the assigned object is the map the entries stand for,
without the key `__proto__`. -/
theorem assignSorted_inj {es es' : Props α} (hnodup : (keys es).Nodup)
    (hnodup' : (keys es').Nodup) : assignSorted es = assignSorted es' ↔
      ∀ k, k ≠ protoKey → ownValue es k = ownValue es' k := by
  let keep (k : JsString) : Bool := k ≠ protoKey
  have hassign (entries : Props α) : assignSorted entries =
      buildProps (sortByKey (entries.filter fun p => keep p.1)) := by
    rw [assignSorted_eq, ← sortByKey_filter]
  have hsub (entries : Props α) (hn : (keys entries).Nodup) :
      (keys (entries.filter fun p => keep p.1)).Nodup :=
    hn.sublist (List.filter_sublist.map Prod.fst)
  rw [hassign es, hassign es',
    buildProps_sortByKey_inj (hsub es hnodup) (hsub es' hnodup')]
  apply forall_congr'
  intro k
  rw [ownValue_filter keep, ownValue_filter keep]
  rcases eq_or_ne k protoKey with hproto | hother
  · simp [keep, hproto]
  · simp [keep, hother]

/-! ## The canonical document -/

end OpticsAgent.Utility

namespace OpticsAgent.Ecma.Json

open OpticsAgent.Utility OpticsAgent.Observation

mutual

def canonical : Json → Json
  | .num x => .num x.clearNegZero
  | .arr items => .arr (canonicalItems items)
  | .obj props => .obj (assignSorted (canonicalProps props))
  | j => j

def canonicalItems : List Json → List Json
  | [] => []
  | x :: rest => canonical x :: canonicalItems rest

def canonicalProps : List (JsString × Json) → List (JsString × Json)
  | [] => []
  | (k, v) :: rest => (k, canonical v) :: canonicalProps rest

end

theorem canonicalItems_eq_map (items : List Json) :
    canonicalItems items = items.map canonical := by
  induction items with
  | nil => rfl
  | cons x rest ih => rw [canonicalItems, ih, List.map_cons]

theorem canonicalProps_eq_map (props : List (JsString × Json)) :
    canonicalProps props = props.map fun p => (p.1, canonical p.2) := by
  induction props with
  | nil => rfl
  | cons p rest ih => rw [canonicalProps, ih, List.map_cons]

theorem keys_canonicalProps (props : List (JsString × Json)) :
    keys (canonicalProps props) = keys props := by
  simp [canonicalProps_eq_map, keys]

@[simp] theorem shape_canonical (j : Json) : j.canonical.shape = j.shape := by
  cases j <;> simp [canonical, shape, Double.value_clearNegZero]

theorem canonical_wellFormed (j : Json) : j.canonical.WellFormed := by
  induction j using Json.ind with
  | hnull | hbool | hnum | hstr => trivial
  | harr items ih =>
      rw [canonical, WellFormed, wellFormedItems_iff, canonicalItems_eq_map]
      intro y hy
      obtain ⟨x, hx, rfl⟩ := List.mem_map.mp hy
      exact ih x hx
  | hobj props ih =>
      rw [canonical, WellFormed]
      refine ⟨ownOrder_assignSorted _, ?_⟩
      rw [wellFormedProps_iff]
      intro q hq
      have hmem := mem_of_mem_assignSorted hq
      rw [canonicalProps_eq_map] at hmem
      obtain ⟨p, hp, rfl⟩ := List.mem_map.mp hmem
      exact ih p hp

@[simp] theorem clearNegZero_canonical (j : Json) : j.canonical.clearNegZero = j.canonical := by
  induction j using Json.ind with
  | hnull | hbool | hstr => rfl
  | hnum x => simp [canonical, clearNegZero, Double.clearNegZero_idem]
  | harr items ih =>
      rw [canonical, clearNegZero, clearItems_eq_map, canonicalItems_eq_map, List.map_map]
      congr 1
      exact List.map_congr_left ih
  | hobj props ih =>
      have hprops : clearProps (canonicalProps props) = canonicalProps props := by
        rw [clearProps_eq_map, canonicalProps_eq_map, List.map_map]
        apply List.map_congr_left
        intro p hp
        simp [ih p hp]
      rw [canonical, clearNegZero, clearProps_eq_map, ← assignSorted_map, ← clearProps_eq_map,
        hprops]

theorem canonical_clearNegZero (j : Json) : j.clearNegZero.canonical = j.canonical := by
  induction j using Json.ind with
  | hnull | hbool | hstr => rfl
  | hnum x => simp [canonical, clearNegZero]
  | harr items ih =>
      rw [clearNegZero, canonical, canonical, clearItems_eq_map, canonicalItems_eq_map,
        canonicalItems_eq_map, List.map_map]
      congr 1
      exact List.map_congr_left ih
  | hobj props ih =>
      have hprops : canonicalProps (clearProps props) = canonicalProps props := by
        rw [clearProps_eq_map, canonicalProps_eq_map, canonicalProps_eq_map, List.map_map]
        apply List.map_congr_left
        intro p hp
        simp [ih p hp]
      rw [clearNegZero, canonical, canonical, hprops]

/-! ## What the canonical document determines -/

/-- Every step but the one into an own key `__proto__`. -/
def offProto : Set PathStep := {s | s ≠ .key protoKey}

/-- The documents agree wherever no path runs through an own key `__proto__`. -/
def AgreeOffProto (a b : Json) : Prop := tree.Agree offProto a b

theorem AgreeOffProto.of_same {a b : Json} (h : Same a b) : AgreeOffProto a b :=
  Tree.Agree.mono (Set.subset_univ offProto) h

theorem canonical_inj_of_shape_ne {a b : Json} (h : a.shape ≠ b.shape) :
    a.canonical = b.canonical ↔ AgreeOffProto a b := by
  constructor
  · intro heq
    have hshape := congrArg shape heq
    rw [shape_canonical, shape_canonical] at hshape
    exact absurd hshape h
  · intro hagree
    exact absurd (Tree.Agree.label_eq hagree) h

theorem ownValue_canonicalProps (props : List (JsString × Json)) (k : JsString) :
    ownValue (canonicalProps props) k = (ownValue props k).map canonical := by
  rw [canonicalProps_eq_map]
  exact ownValue_map canonical props k

private theorem map_eq_map_iff_forall₂ {f : Json → Json} {R : Json → Json → Prop}
    {xs ys : List Json} (h : ∀ x ∈ xs, ∀ y ∈ ys, (f x = f y ↔ R x y)) :
    xs.map f = ys.map f ↔ List.Forall₂ R xs ys := by
  induction xs generalizing ys with
  | nil => cases ys <;> simp
  | cons x rest ih =>
      cases ys with
      | nil => simp
      | cons y rest' =>
          have hhead := h x List.mem_cons_self y List.mem_cons_self
          have htail := ih fun x' hx' y' hy' =>
            h x' (List.mem_cons_of_mem x hx') y' (List.mem_cons_of_mem y hy')
          rw [List.map_cons, List.map_cons, List.cons.injEq, List.forall₂_cons, hhead, htail]

/-- By induction on the first document; the second is then of the same shape. -/
theorem canonical_inj {a b : Json} (ha : a.WellFormed) (hb : b.WellFormed) :
    a.canonical = b.canonical ↔ AgreeOffProto a b := by
  induction a using Json.ind generalizing b with
  | hnull =>
      cases b with
      | null => exact iff_of_true rfl (Tree.Agree.refl _)
      | _ => exact canonical_inj_of_shape_ne (by simp [shape])
  | hbool x =>
      cases b with
      | bool y =>
          rw [AgreeOffProto, agree_leaf (fun _ => rfl) (fun _ => rfl)]
          simp [canonical, shape]
      | _ => exact canonical_inj_of_shape_ne (by simp [shape])
  | hnum x =>
      cases b with
      | num y =>
          rw [AgreeOffProto, agree_leaf (fun _ => rfl) (fun _ => rfl)]
          simp [canonical, shape, Double.clearNegZero_eq_iff]
      | _ => exact canonical_inj_of_shape_ne (by simp [shape])
  | hstr s =>
      cases b with
      | str s' =>
          rw [AgreeOffProto, agree_leaf (fun _ => rfl) (fun _ => rfl)]
          simp [canonical, shape]
      | _ => exact canonical_inj_of_shape_ne (by simp [shape])
  | harr xs ih =>
      cases b with
      | arr ys =>
          rw [WellFormed, wellFormedItems_iff] at ha hb
          rw [AgreeOffProto, agree_arr (fun i => by simp [offProto]), canonical, canonical,
            Json.arr.injEq, canonicalItems_eq_map, canonicalItems_eq_map]
          exact map_eq_map_iff_forall₂ fun x hx y hy => ih x hx (ha x hx) (hb y hy)
      | _ => exact canonical_inj_of_shape_ne (by simp [shape])
  | hobj props ih =>
      cases b with
      | obj props' =>
          obtain ⟨horder, hprops⟩ := ha
          obtain ⟨horder', hprops'⟩ := hb
          rw [wellFormedProps_iff] at hprops hprops'
          rw [AgreeOffProto, agree_obj, canonical, canonical, Json.obj.injEq,
            assignSorted_inj (by rw [keys_canonicalProps]; exact horder.nodup)
              (by rw [keys_canonicalProps]; exact horder'.nodup)]
          apply forall_congr'
          intro k
          have hstep : PathStep.key k ∈ offProto ↔ k ≠ protoKey := by simp [offProto]
          rw [hstep, ownValue_canonicalProps, ownValue_canonicalProps]
          refine imp_congr_right fun _ => ?_
          cases hv : ownValue props k with
          | none =>
              cases hv' : ownValue props' k with
              | none => exact iff_of_true rfl Option.Rel.none
              | some v' => exact iff_of_false (by simp) (by rintro ⟨⟩)
          | some v =>
              cases hv' : ownValue props' k with
              | none => exact iff_of_false (by simp) (by rintro ⟨⟩)
              | some v' =>
                  have hmem := mem_of_ownValue hv
                  have hmem' := mem_of_ownValue hv'
                  have hvalue := ih (k, v) hmem (hprops _ hmem) (hprops' _ hmem')
                  rw [Option.map_some, Option.map_some, Option.some.injEq, hvalue]
                  exact ⟨Option.Rel.some, fun h => by cases h; assumption⟩
      | _ => exact canonical_inj_of_shape_ne (by simp [shape])

end OpticsAgent.Ecma.Json

namespace OpticsAgent.Utility

open OpticsAgent.Ecma

theorem normalize_eq_undefined_iff (v : JsValue) : normalize v = .undefined ↔ v = .undefined := by
  cases v with
  | date time => cases time <;> simp [normalize]
  | _ => simp [normalize]

theorem normalizeItems_eq_map (items : List JsValue) :
    normalizeItems items = items.map normalize := by
  induction items with
  | nil => rfl
  | cons x rest ih => rw [normalizeItems, ih, List.map_cons]

theorem normalizeProps_cons {k : JsString} {v : JsValue} (rest : List (JsString × JsValue))
    (h : v ≠ .undefined) :
    normalizeProps ((k, v) :: rest) = (k, normalize v) :: normalizeProps rest := by
  cases v with
  | undefined => exact absurd rfl h
  | _ => rfl

theorem normalizeProps_defined {props : List (JsString × JsValue)} {q : JsString × JsValue}
    (h : q ∈ normalizeProps props) : q.2 ≠ .undefined := by
  induction props with
  | nil => cases h
  | cons p rest ih =>
      obtain ⟨k, v⟩ := p
      rcases eq_or_ne v .undefined with rfl | hv
      · exact ih h
      · rw [normalizeProps_cons rest hv] at h
        rcases List.mem_cons.mp h with rfl | htail
        · exact fun hq => hv ((normalize_eq_undefined_iff v).mp hq)
        · exact ih htail

/-- The document a value that is not `undefined` serializes to, without the
sign of zero. -/
private def document (v : JsValue) : Json := (v.toJson.getD .null).clearNegZero

private theorem clearProps_propsToJson {props : List (JsString × JsValue)}
    (h : ∀ p ∈ props, p.2 ≠ .undefined) :
    Json.clearProps (JsValue.propsToJson props) = props.map fun p => (p.1, document p.2) := by
  induction props with
  | nil => rfl
  | cons p rest ih =>
      obtain ⟨k, v⟩ := p
      obtain ⟨hv, hrest⟩ := List.forall_mem_cons.mp h
      cases hj : v.toJson with
      | none => exact absurd ((JsValue.toJson_eq_none_iff v).mp hj) hv
      | some j =>
          rw [JsValue.propsToJson, hj, Json.clearProps, ih hrest, List.map_cons, document, hj,
            Option.getD_some]

/-- Normalizing before serialization or after it gives the same document, by
induction on the value. -/
theorem toJson_normalize (v : JsValue) :
    (normalize v).toJson.map Json.clearNegZero = v.toJson.map Json.canonical := by
  induction v using JsValue.ind with
  | hundefined | hnull | hbool | hstr => rfl
  | hnum x => cases x <;> rfl
  | hdate time => cases time <;> rfl
  | harr items ih =>
      rw [normalize, JsValue.toJson, JsValue.toJson, Option.map_some, Option.map_some,
        Json.clearNegZero, Json.canonical, Json.clearItems_eq_map, Json.canonicalItems_eq_map,
        JsValue.itemsToJson_eq_map, JsValue.itemsToJson_eq_map, normalizeItems_eq_map,
        List.map_map, List.map_map, List.map_map]
      congr 2
      apply List.map_congr_left
      intro x hx
      have hdocument := ih x hx
      cases hn : (normalize x).toJson with
      | none =>
          cases hj : x.toJson with
          | none => simp [hn, hj, Json.clearNegZero, Json.canonical]
          | some j => simp [hn, hj] at hdocument
      | some n =>
          cases hj : x.toJson with
          | none => simp [hn, hj] at hdocument
          | some j =>
              simp only [hn, hj, Option.map_some, Option.some.injEq] at hdocument
              simp [hn, hj, hdocument]
  | hobj props ih =>
      have hentries : (normalizeProps props).map (fun p => (p.1, document p.2)) =
          Json.canonicalProps (JsValue.propsToJson props) := by
        induction props with
        | nil => rfl
        | cons p rest ihprops =>
            obtain ⟨k, v⟩ := p
            obtain ⟨hv, hrest⟩ := List.forall_mem_cons.mp ih
            rcases eq_or_ne v .undefined with rfl | hdefined
            · exact ihprops hrest
            · rw [normalizeProps_cons rest hdefined, List.map_cons, ihprops hrest]
              cases hj : v.toJson with
              | none => exact absurd ((JsValue.toJson_eq_none_iff v).mp hj) hdefined
              | some j =>
                  obtain ⟨n, hn, hclear⟩ : ∃ n, (normalize v).toJson = some n ∧
                      n.clearNegZero = j.canonical := by
                    rw [hj, Option.map_some] at hv
                    exact Option.map_eq_some_iff.mp hv
                  rw [JsValue.propsToJson, hj, Json.canonicalProps, document, hn,
                    Option.getD_some, hclear]
      have hdefined : ∀ p ∈ assignSorted (normalizeProps props), p.2 ≠ .undefined :=
        fun p hp => normalizeProps_defined (mem_of_mem_assignSorted hp)
      rw [normalize, JsValue.toJson, JsValue.toJson, Option.map_some, Option.map_some,
        Json.clearNegZero, Json.canonical, clearProps_propsToJson hdefined, ← assignSorted_map,
        hentries]

theorem canonicalize_eq (v : JsValue) :
    canonicalize v = ((v.toJson.map Json.canonical).map Json.print).getD (js "null") := by
  rw [← toJson_normalize, canonicalize, JsValue.stringify]
  cases (normalize v).toJson with
  | none => rfl
  | some j => exact (Json.print_clearNegZero j).symm

theorem canonicalize_toValue (j : Json) : canonicalize j.toValue = j.canonical.print := by
  rw [canonicalize_eq, Json.toJson_toValue]
  rfl

/-- The canonical texts of two documents are the same exactly when the
documents agree off the own keys `__proto__`. -/
theorem canonicalize_inj {a b : Json} (ha : a.WellFormed) (hb : b.WellFormed) :
    canonicalize a.toValue = canonicalize b.toValue ↔ a.AgreeOffProto b := by
  rw [canonicalize_toValue, canonicalize_toValue, ← Json.canonical_inj ha hb]
  constructor
  · intro htext
    have hclear := print_inj a.canonical_wellFormed b.canonical_wellFormed htext
    rwa [Json.clearNegZero_canonical, Json.clearNegZero_canonical] at hclear
  · exact congrArg Json.print

/-- Canonicalization decides JSON equality for exactly those pairs that are
equal or differ somewhere off the own keys `__proto__`. -/
theorem canonicalize_eq_iff_same_iff (a b : JsonDocument) :
    (canonicalize a.json.toValue = canonicalize b.json.toValue ↔ a.json.Same b.json) ↔
      (a.json.AgreeOffProto b.json → a.json.Same b.json) := by
  rw [canonicalize_inj a.wellFormed b.wellFormed]
  constructor
  · exact fun h => h.mp
  · exact fun h => ⟨h, Json.AgreeOffProto.of_same⟩

/-- `{"__proto__": 1}` and `{}` have one canonical text. -/
theorem canonicalize_eq_iff_same_fails :
    ¬ ∀ a b : JsonDocument,
      canonicalize a.json.toValue = canonicalize b.json.toValue ↔ a.json.Same b.json := by
  intro h
  let a : JsonDocument := ⟨.obj [(protoKey, .num (.natural 1 (by norm_num)))], by
    simp [Json.WellFormed, OwnOrder, Json.WellFormedProps]⟩
  let b : JsonDocument := ⟨.obj [], by simp [Json.WellFormed, OwnOrder, Json.WellFormedProps]⟩
  have htext : canonicalize a.json.toValue = canonicalize b.json.toValue := by
    rw [canonicalize_toValue, canonicalize_toValue]
    rfl
  have hsame := (h a b).mp htext
  have hchild := hsame [.key protoKey] (by simp)
  simp [a, b, Observation.Tree.labelAt, Json.tree, Json.child, ownValue] at hchild

end OpticsAgent.Utility
