import Mathlib
import OpticsAgent.Ecma.Text

/-!
The own string-keyed properties of an ordinary object, in the order the
language enumerates them: array indices first, ascending, then the other keys
in the order they were created. Writing an existing key keeps its place. The
results are generic in the type of the property values.
-/

namespace OpticsAgent.Ecma

variable {α β : Type*}

abbrev Props (α : Type*) := List (JsString × α)

/-- The array index a key spells canonically, if it is one. -/
def arrayIndex? (key : JsString) : Option ℕ :=
  let n := decimalValue (spanDigits key).1
  if (naturalDigits n).map digitUnit = key ∧ n < 2 ^ 32 - 1 then some n else none

/-- `left` is enumerated before a key `right` that is created after it. -/
def precedes (left right : JsString) : Bool :=
  match arrayIndex? left, arrayIndex? right with
  | some i, some j => i < j
  | some _, none => true
  | none, none => true
  | none, some _ => false

theorem arrayIndex?_inj {left right : JsString} {n : ℕ} (hl : arrayIndex? left = some n)
    (hr : arrayIndex? right = some n) : left = right := by
  unfold arrayIndex? at hl hr
  dsimp only at hl hr
  split_ifs at hl hr with hleft hright
  obtain rfl := Option.some.inj hl
  rw [← hleft.1, ← hright.1, Option.some.inj hr]

theorem precedes_trans {a b c : JsString} (hab : precedes a b = true)
    (hbc : precedes b c = true) : precedes a c = true := by
  unfold precedes at *
  cases ha : arrayIndex? a <;> cases hb : arrayIndex? b <;> cases hc : arrayIndex? c <;>
    simp_all
  omega

/-- Of two different keys, at least one order is the enumeration order. -/
theorem precedes_of_not {a b : JsString} (hne : a ≠ b) (h : precedes a b = false) :
    precedes b a = true := by
  unfold precedes at *
  cases ha : arrayIndex? a with
  | none =>
      cases hb : arrayIndex? b with
      | none => simp [ha, hb] at h
      | some j => rfl
  | some i =>
      cases hb : arrayIndex? b with
      | none => simp [ha, hb] at h
      | some j =>
          have hij : i ≠ j := fun heq => hne (arrayIndex?_inj ha (heq ▸ hb))
          simp [ha, hb] at h ⊢
          omega

def keys (props : Props α) : List JsString :=
  props.map Prod.fst

/-- `[[GetOwnProperty]]` of a data property. -/
def ownValue : Props α → JsString → Option α
  | [], _ => none
  | (key, value) :: rest, k => if key = k then some value else ownValue rest k

def insertProp (key : JsString) (value : α) : Props α → Props α
  | [] => [(key, value)]
  | p :: rest =>
      if precedes p.1 key then p :: insertProp key value rest else (key, value) :: p :: rest

/-- Create or overwrite a data property. -/
def setProp (props : Props α) (key : JsString) (value : α) : Props α :=
  if key ∈ keys props then props.map (fun p => if p.1 = key then (key, value) else p)
  else insertProp key value props

/-- Create the properties of an object one after the other. -/
def buildProps (entries : Props α) : Props α :=
  entries.foldl (fun props p => setProp props p.1 p.2) []

/-- Distinct keys in enumeration order. -/
def OwnOrder (props : Props α) : Prop :=
  props.Pairwise fun p q => p.1 ≠ q.1 ∧ precedes p.1 q.1 = true

@[simp] theorem ownValue_nil (key : JsString) : ownValue ([] : Props α) key = none := rfl

theorem ownValue_eq_none_iff (props : Props α) (key : JsString) :
    ownValue props key = none ↔ key ∉ keys props := by
  induction props with
  | nil => simp [keys]
  | cons p rest ih =>
      obtain ⟨k, v⟩ := p
      by_cases h : k = key
      · simp [ownValue, keys, h]
      · simp [ownValue, keys, h, Ne.symm h] at ih ⊢
        exact ih

theorem mem_of_ownValue {props : Props α} {key : JsString} {value : α}
    (h : ownValue props key = some value) : (key, value) ∈ props := by
  induction props with
  | nil => simp at h
  | cons p rest ih =>
      obtain ⟨k, v⟩ := p
      by_cases hk : k = key
      · simp [ownValue, hk] at h
        simp [hk, h]
      · simp [ownValue, hk] at h
        exact List.mem_cons_of_mem _ (ih h)

theorem ownOrder_map (f : α → β) {props : Props α} (h : OwnOrder props) :
    OwnOrder (props.map fun p => (p.1, f p.2)) := by
  unfold OwnOrder at h ⊢
  exact List.pairwise_map.mpr h

theorem OwnOrder.nodup {props : Props α} (h : OwnOrder props) : (keys props).Nodup := by
  rw [keys, List.Nodup, List.pairwise_map]
  exact h.imp fun hpq => hpq.1

/-- With distinct keys, membership and own values say the same. -/
theorem ownValue_of_mem {props : Props α} (h : (keys props).Nodup) {key : JsString} {value : α}
    (hmem : (key, value) ∈ props) : ownValue props key = some value := by
  induction props with
  | nil => simp at hmem
  | cons p rest ih =>
      obtain ⟨k, v⟩ := p
      have hnodup : k ∉ keys rest ∧ (keys rest).Nodup := List.nodup_cons.mp h
      rcases List.mem_cons.mp hmem with heq | htail
      · obtain ⟨rfl, rfl⟩ := Prod.mk.inj heq
        simp [ownValue]
      · have hk : k ≠ key := by
          rintro rfl
          exact hnodup.1 (List.mem_map.mpr ⟨_, htail, rfl⟩)
        simp [ownValue, hk, ih hnodup.2 htail]

theorem mem_insertProp (key : JsString) (value : α) (props : Props α) (p : JsString × α) :
    p ∈ insertProp key value props ↔ p = (key, value) ∨ p ∈ props := by
  induction props with
  | nil => simp [insertProp]
  | cons q rest ih =>
      unfold insertProp
      split_ifs with h
      · simp only [List.mem_cons, ih]
        tauto
      · simp only [List.mem_cons]

theorem ownValue_insertProp (key : JsString) (value : α) (props : Props α)
    (hkey : key ∉ keys props) (k : JsString) :
    ownValue (insertProp key value props) k =
      if key = k then some value else ownValue props k := by
  induction props with
  | nil => simp [insertProp, ownValue]
  | cons q rest ih =>
      obtain ⟨k', v'⟩ := q
      have hrest : key ∉ keys rest := fun hmem => hkey (List.mem_cons_of_mem _ hmem)
      have hne : k' ≠ key := fun heq => hkey (by simp [keys, heq])
      unfold insertProp
      split_ifs with hprec hk hk
      · have hk' : k' ≠ k := fun heq => hne (heq.trans hk.symm)
        rw [ownValue, if_neg hk', ih hrest, if_pos hk]
      · by_cases hk' : k' = k
        · simp [ownValue, hk']
        · simp [ownValue, hk', ih hrest, hk]
      · simp [ownValue, hk]
      · simp [ownValue, hk]

theorem ownValue_setProp (props : Props α) (key : JsString) (value : α) (k : JsString) :
    ownValue (setProp props key value) k =
      if key = k then some value else ownValue props k := by
  unfold setProp
  split_ifs with hmem hk hk
  · subst hk
    have hfound : ownValue props key ≠ none := fun h =>
      (ownValue_eq_none_iff props key).mp h hmem
    clear hmem
    induction props with
    | nil => simp at hfound
    | cons p rest ih =>
        obtain ⟨k', v'⟩ := p
        by_cases hk' : k' = key
        · simp [ownValue, hk']
        · simp [ownValue, hk'] at hfound ⊢
          exact ih hfound
  · clear hmem
    induction props with
    | nil => rfl
    | cons p rest ih =>
        obtain ⟨k', v'⟩ := p
        by_cases hk' : k' = key
        · have hk'k : k' ≠ k := fun heq => hk (hk'.symm.trans heq)
          simp [ownValue, hk', hk] at ih ⊢
          exact ih
        · simp [ownValue, hk'] at ih ⊢
          rw [ih]
  · rw [ownValue_insertProp key value props hmem, if_pos hk]
  · rw [ownValue_insertProp key value props hmem, if_neg hk]

theorem ownOrder_insertProp {props : Props α} {key : JsString} (value : α)
    (h : OwnOrder props) (hkey : key ∉ keys props) :
    OwnOrder (insertProp key value props) := by
  induction props with
  | nil => simp [insertProp, OwnOrder]
  | cons p rest ih =>
      have hhead : ∀ q ∈ rest, p.1 ≠ q.1 ∧ precedes p.1 q.1 = true :=
        (List.pairwise_cons.mp h).1
      have htail : OwnOrder rest := (List.pairwise_cons.mp h).2
      have hrest : key ∉ keys rest := fun hmem => hkey (List.mem_cons_of_mem _ hmem)
      have hne : p.1 ≠ key := fun heq => hkey (by simp [keys, heq])
      unfold insertProp
      split_ifs with hprec
      · refine List.pairwise_cons.mpr ⟨?_, ih htail hrest⟩
        intro q hq
        rcases (mem_insertProp key value rest q).mp hq with rfl | hold
        · exact ⟨hne, hprec⟩
        · exact hhead q hold
      · have hfirst : precedes key p.1 = true :=
          precedes_of_not hne (Bool.not_eq_true _ ▸ hprec)
        refine List.pairwise_cons.mpr ⟨?_, h⟩
        intro q hq
        rcases List.mem_cons.mp hq with rfl | hold
        · exact ⟨hne.symm, hfirst⟩
        · have hqkey : key ≠ q.1 := by
            rintro rfl
            exact hrest (List.mem_map.mpr ⟨q, hold, rfl⟩)
          exact ⟨hqkey, precedes_trans hfirst (hhead q hold).2⟩

theorem ownOrder_setProp {props : Props α} (key : JsString) (value : α)
    (h : OwnOrder props) : OwnOrder (setProp props key value) := by
  unfold setProp
  split_ifs with hmem
  · have hfst (p : JsString × α) : (if p.1 = key then (key, value) else p).1 = p.1 := by
      split_ifs with hp
      · exact hp.symm
      · rfl
    rw [OwnOrder, List.pairwise_map]
    apply h.imp
    intro p q hpq
    rw [hfst, hfst]
    exact hpq
  · exact ownOrder_insertProp value h hmem

/-- A key that every present key precedes is created at the end. -/
theorem setProp_append {props : Props α} {key : JsString} (value : α)
    (h : ∀ p ∈ props, p.1 ≠ key ∧ precedes p.1 key = true) :
    setProp props key value = props ++ [(key, value)] := by
  have hkey : key ∉ keys props := by
    intro hmem
    obtain ⟨p, hp, heq⟩ := List.mem_map.mp hmem
    exact (h p hp).1 heq
  rw [setProp, if_neg hkey]
  clear hkey
  induction props with
  | nil => rfl
  | cons p rest ih =>
      have hp := (h p (by simp)).2
      have hrest := ih (fun q hq => h q (by simp [hq]))
      simp [insertProp, hp, hrest]

/-- Creating properties that are already in enumeration order changes nothing. -/
theorem buildProps_of_ownOrder {props : Props α} (h : OwnOrder props) :
    buildProps props = props := by
  induction props using List.reverseRecOn with
  | nil => rfl
  | append_singleton rest p ih =>
      have hsplit := List.pairwise_append.mp h
      have hstep : buildProps (rest ++ [p]) = setProp (buildProps rest) p.1 p.2 := by
        simp [buildProps]
      rw [hstep, ih hsplit.1, setProp_append]
      intro q hq
      exact hsplit.2.2 q hq p (by simp)

theorem ownOrder_buildProps (entries : Props α) : OwnOrder (buildProps entries) := by
  induction entries using List.reverseRecOn with
  | nil => exact List.Pairwise.nil
  | append_singleton rest p ih =>
      have hstep : buildProps (rest ++ [p]) = setProp (buildProps rest) p.1 p.2 := by
        simp [buildProps]
      rw [hstep]
      exact ownOrder_setProp p.1 p.2 ih

theorem mem_of_mem_setProp {props : Props α} {key : JsString} {value : α} {q : JsString × α}
    (h : q ∈ setProp props key value) : q = (key, value) ∨ q ∈ props := by
  unfold setProp at h
  split_ifs at h with hmem
  · obtain ⟨p, hp, hq⟩ := List.mem_map.mp h
    split_ifs at hq with hkey
    · exact Or.inl hq.symm
    · exact Or.inr (hq ▸ hp)
  · exact (mem_insertProp key value props q).mp h

theorem mem_of_mem_buildProps {entries : Props α} {q : JsString × α}
    (h : q ∈ buildProps entries) : q ∈ entries := by
  induction entries using List.reverseRecOn with
  | nil => exact h
  | append_singleton rest p ih =>
      rw [buildProps, List.foldl_append] at h
      rcases mem_of_mem_setProp h with hnew | hold
      · simp [hnew]
      · exact List.mem_append_left _ (ih hold)

/-- With distinct keys, the built object has exactly the entries' values. -/
theorem ownValue_buildProps {entries : Props α} (h : (keys entries).Nodup) (k : JsString) :
    ownValue (buildProps entries) k = ownValue entries k := by
  induction entries using List.reverseRecOn with
  | nil => rfl
  | append_singleton rest p ih =>
      obtain ⟨key, value⟩ := p
      have hnodup : (keys rest).Nodup ∧ key ∉ keys rest := by
        rw [keys, List.map_append, List.nodup_append] at h
        exact ⟨h.1, fun hmem => h.2.2 key hmem key (by simp) rfl⟩
      have hstep : buildProps (rest ++ [(key, value)]) =
          setProp (buildProps rest) key value := by
        simp [buildProps]
      have happend : ownValue (rest ++ [(key, value)]) k =
          (ownValue rest k).or (if key = k then some value else none) := by
        clear ih hstep h hnodup
        induction rest with
        | nil => simp [ownValue]
        | cons q tail ihtail =>
            obtain ⟨k', v'⟩ := q
            by_cases hk' : k' = k
            · simp [ownValue, hk']
            · simp [ownValue, hk', ihtail]
      rw [hstep, ownValue_setProp, ih hnodup.1, happend]
      by_cases hk : key = k
      · have hnone : ownValue rest k = none :=
          (ownValue_eq_none_iff rest k).mpr (hk ▸ hnodup.2)
        simp [hk, hnone]
      · simp [hk]

theorem ownValue_buildProps_reverse (entries : Props α) (k : JsString) :
    ownValue (buildProps entries) k = ownValue entries.reverse k := by
  induction entries using List.reverseRecOn with
  | nil => rfl
  | append_singleton rest last ih =>
      have hbuild : buildProps (rest ++ [last]) = setProp (buildProps rest) last.1 last.2 := by
        simp [buildProps]
      rw [hbuild, ownValue_setProp, ih, List.reverse_append]
      rfl

theorem ownValue_eq_some_iff {props : Props α} {k : JsString} {v : α} :
    ownValue props k = some v ↔
      ∃ before after, props = before ++ (k, v) :: after ∧ k ∉ keys before := by
  induction props with
  | nil => simp
  | cons first rest ih =>
      obtain ⟨key, value⟩ := first
      rw [ownValue]
      by_cases hkey : key = k
      · subst hkey
        rw [if_pos rfl]
        constructor
        · rintro ⟨rfl⟩
          exact ⟨[], rest, rfl, List.not_mem_nil⟩
        · rintro ⟨before, after, hsplit, hfree⟩
          cases before with
          | nil =>
              obtain ⟨⟨-, rfl⟩, -⟩ := List.cons_eq_cons.mp hsplit
              rfl
          | cons other _ =>
              obtain ⟨rfl, -⟩ := List.cons_eq_cons.mp hsplit
              exact absurd List.mem_cons_self hfree
      · rw [if_neg hkey, ih]
        constructor
        · rintro ⟨before, after, rfl, hfree⟩
          exact ⟨(key, value) :: before, after, rfl,
            List.mem_cons.not.mpr (not_or.mpr ⟨Ne.symm hkey, hfree⟩)⟩
        · rintro ⟨before, after, hsplit, hfree⟩
          cases before with
          | nil =>
              obtain ⟨hfirst, -⟩ := List.cons_eq_cons.mp hsplit
              exact absurd (congrArg Prod.fst hfirst) hkey
          | cons other tail =>
              obtain ⟨-, hrest⟩ := List.cons_eq_cons.mp hsplit
              exact ⟨tail, after, hrest, fun h => hfree (List.mem_cons_of_mem _ h)⟩

/-- The last entry of a key is the one that stays. -/
theorem ownValue_buildProps_eq_some_iff {entries : Props α} {k : JsString} {v : α} :
    ownValue (buildProps entries) k = some v ↔
      ∃ before after, entries = before ++ (k, v) :: after ∧ k ∉ keys after := by
  have hkeys : ∀ props : Props α, k ∈ keys props.reverse ↔ k ∈ keys props := by
    intro props
    rw [keys, keys, List.map_reverse, List.mem_reverse]
  rw [ownValue_buildProps_reverse, ownValue_eq_some_iff]
  constructor
  · rintro ⟨before, after, hsplit, hfree⟩
    refine ⟨after.reverse, before.reverse, ?_, (hkeys before).not.mpr hfree⟩
    rw [← List.reverse_reverse entries, hsplit]
    simp
  · rintro ⟨before, after, rfl, hfree⟩
    refine ⟨after.reverse, before.reverse, ?_, (hkeys after).not.mpr hfree⟩
    simp

/-- Mapping the values commutes with creating properties. -/
theorem setProp_map (f : α → β) (props : Props α) (key : JsString) (value : α) :
    setProp (props.map fun p => (p.1, f p.2)) key (f value) =
      (setProp props key value).map fun p => (p.1, f p.2) := by
  have hkeys : keys (props.map fun p => (p.1, f p.2)) = keys props := by
    simp [keys]
  unfold setProp
  rw [hkeys]
  split_ifs with hmem
  · simp only [List.map_map]
    apply List.map_congr_left
    intro p hp
    by_cases hpk : p.1 = key <;> simp [hpk]
  · clear hmem hkeys
    induction props with
    | nil => rfl
    | cons p rest ih =>
        simp only [List.map_cons, insertProp]
        split_ifs with hprec
        · rw [List.map_cons, ih]
        · rfl

theorem ownValue_map (f : α → β) (props : Props α) (k : JsString) :
    ownValue (props.map fun p => (p.1, f p.2)) k = (ownValue props k).map f := by
  induction props with
  | nil => rfl
  | cons p rest ih =>
      by_cases hk : p.1 = k <;> simp [ownValue, hk, ih]

/-- Mapping the values commutes with building an object. -/
theorem buildProps_map (f : α → β) (entries : Props α) :
    buildProps (entries.map fun p => (p.1, f p.2)) =
      (buildProps entries).map fun p => (p.1, f p.2) := by
  induction entries using List.reverseRecOn with
  | nil => rfl
  | append_singleton rest p ih =>
      unfold buildProps at ih ⊢
      rw [List.map_append, List.foldl_append, List.foldl_append, ih]
      exact setProp_map f _ p.1 p.2

/-! ## Entries sorted by key -/

/-- `Array.prototype.sort` on the keys: by code units. -/
def keyLe (p q : JsString × α) : Prop := p.1 ≤ q.1

instance : DecidableRel (keyLe (α := α)) := fun p q => inferInstanceAs (Decidable (p.1 ≤ q.1))
instance : Std.Total (keyLe (α := α)) := ⟨fun p q => le_total p.1 q.1⟩
instance : IsTrans (JsString × α) keyLe := ⟨fun _ _ _ => le_trans⟩

def sortByKey (entries : Props α) : Props α := entries.insertionSort keyLe

theorem perm_sortByKey (entries : Props α) : (sortByKey entries).Perm entries :=
  List.perm_insertionSort keyLe entries

theorem keys_perm {es es' : Props α} (h : es.Perm es') : (keys es).Perm (keys es') :=
  h.map Prod.fst

theorem ownValue_perm {es es' : Props α} (h : es.Perm es') (hnodup : (keys es).Nodup)
    (k : JsString) : ownValue es k = ownValue es' k := by
  have hnodup' : (keys es').Nodup := (keys_perm h).nodup_iff.mp hnodup
  apply Option.ext
  intro value
  constructor
  · intro hv
    exact ownValue_of_mem hnodup' (h.mem_iff.mp (mem_of_ownValue hv))
  · intro hv
    exact ownValue_of_mem hnodup (h.mem_iff.mpr (mem_of_ownValue hv))

/-- Sorting makes the list a function of the map it stands for. -/
theorem sorted_eq {es es' : Props α} (h : es.Perm es') (hnodup : (keys es).Nodup)
    (hsorted : es.Pairwise keyLe) (hsorted' : es'.Pairwise keyLe) : es = es' := by
  refine List.Perm.eq_of_pairwise ?_ hsorted hsorted' h
  intro p q hp hq hpq hqp
  have hkey : p.1 = q.1 := le_antisymm hpq hqp
  have hpv : ownValue es p.1 = some p.2 := ownValue_of_mem hnodup hp
  have hqv : ownValue es q.1 = some q.2 := ownValue_of_mem hnodup (h.mem_iff.mpr hq)
  rw [hkey, hqv] at hpv
  exact Prod.ext hkey (Option.some.inj hpv).symm

theorem sorted_sortByKey (entries : Props α) : (sortByKey entries).Pairwise keyLe :=
  List.pairwise_insertionSort keyLe entries

theorem perm_of_ownValue_eq {es es' : Props α} (hnodup : (keys es).Nodup)
    (hnodup' : (keys es').Nodup) (h : ∀ k, ownValue es k = ownValue es' k) : es.Perm es' := by
  rw [List.perm_ext_iff_of_nodup hnodup.of_map hnodup'.of_map]
  rintro ⟨k, value⟩
  constructor
  · intro hmem
    have hv := ownValue_of_mem hnodup hmem
    rw [h] at hv
    exact mem_of_ownValue hv
  · intro hmem
    have hv := ownValue_of_mem hnodup' hmem
    rw [← h] at hv
    exact mem_of_ownValue hv

/-- Building an object from sorted entries gives the same object exactly when
the entries are the same map. -/
theorem buildProps_sortByKey_inj {es es' : Props α} (hnodup : (keys es).Nodup)
    (hnodup' : (keys es').Nodup) :
    buildProps (sortByKey es) = buildProps (sortByKey es') ↔
      ∀ k, ownValue es k = ownValue es' k := by
  have hvalue (entries : Props α) (hn : (keys entries).Nodup) (k : JsString) :
      ownValue (buildProps (sortByKey entries)) k = ownValue entries k := by
    have hsorted : (keys (sortByKey entries)).Nodup :=
      (keys_perm (perm_sortByKey entries)).nodup_iff.mpr hn
    rw [ownValue_buildProps hsorted, ownValue_perm (perm_sortByKey entries) hsorted]
  constructor
  · intro h k
    rw [← hvalue es hnodup, h, hvalue es' hnodup']
  · intro h
    have hperm := perm_of_ownValue_eq hnodup hnodup' h
    have hsort : (sortByKey es).Perm (sortByKey es') :=
      (perm_sortByKey es).trans (hperm.trans (perm_sortByKey es').symm)
    have hkeys : (keys (sortByKey es)).Nodup :=
      (keys_perm (perm_sortByKey es)).nodup_iff.mpr hnodup
    rw [sorted_eq hsort hkeys (sorted_sortByKey es) (sorted_sortByKey es')]

private theorem filter_orderedInsert (keep : JsString × α → Bool) (p : JsString × α)
    {es : Props α} (hsorted : es.Pairwise keyLe) :
    (es.orderedInsert keyLe p).filter keep =
      if keep p then (es.filter keep).orderedInsert keyLe p else es.filter keep := by
  induction es with
  | nil => cases hkeep : keep p <;> simp [hkeep]
  | cons q rest ih =>
      obtain ⟨hq, hrest⟩ := List.pairwise_cons.mp hsorted
      by_cases hle : keyLe p q
      · have hfirst (l : Props α) (hl : l ⊆ q :: rest) :
            l.orderedInsert keyLe p = p :: l := by
          cases l with
          | nil => rfl
          | cons r _ =>
              apply List.orderedInsert_cons_of_le
              rcases List.mem_cons.mp (hl List.mem_cons_self) with rfl | hr
              · exact hle
              · exact le_trans hle (hq r hr)
        rw [hfirst _ (List.Subset.refl _), hfirst _ List.filter_sublist.subset, List.filter_cons]
      · rw [List.orderedInsert_of_not_le _ _ hle, List.filter_cons, ih hrest, List.filter_cons]
        cases keep q with
        | true =>
            simp only [if_true]
            split_ifs
            · rw [List.orderedInsert_of_not_le _ _ hle]
            · rfl
        | false => rfl

/-- Sorting is stable, so it commutes with filtering. -/
theorem sortByKey_filter (keep : JsString × α → Bool) (es : Props α) :
    (sortByKey es).filter keep = sortByKey (es.filter keep) := by
  induction es with
  | nil => rfl
  | cons p rest ih =>
      change ((sortByKey rest).orderedInsert keyLe p).filter keep = _
      rw [filter_orderedInsert keep p (sorted_sortByKey rest), ih, List.filter_cons]
      split_ifs <;> rfl

theorem sortByKey_map (f : α → β) (es : Props α) :
    (sortByKey es).map (fun p => (p.1, f p.2)) = sortByKey (es.map fun p => (p.1, f p.2)) :=
  List.map_insertionSort keyLe keyLe _ es fun _ _ _ _ => Iff.rfl

theorem ownValue_filter (keep : JsString → Bool) (props : Props α) (k : JsString) :
    ownValue (props.filter fun p => keep p.1) k = if keep k then ownValue props k else none := by
  induction props with
  | nil => simp
  | cons p rest ih =>
      obtain ⟨key, v⟩ := p
      rcases eq_or_ne key k with rfl | hne
      · cases hkeep : keep key <;> simp [ownValue, hkeep, ih]
      · cases hkeep : keep key <;> simp [ownValue, hkeep, hne, ih]

end OpticsAgent.Ecma
