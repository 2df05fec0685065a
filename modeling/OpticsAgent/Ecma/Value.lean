import Mathlib
import OpticsAgent.Ecma.Json

/-!
In-memory values a payload is built from, and `JSON.stringify` on them.
`toJson` makes the conversions of SerializeJSONProperty (`toJSON` of dates,
`undefined` dropped from objects and turned into `null` in arrays, non-finite
numbers turned into `null`); the text is then the printed document.
-/

namespace OpticsAgent.Ecma

/-- Payload values. A date holds its time value, `none` when invalid. -/
inductive JsValue where
  | undefined
  | null
  | bool (b : Bool)
  | num (x : Number)
  | str (s : JsString)
  | date (time : Option ℤ)
  | arr (items : List JsValue)
  | obj (props : List (JsString × JsValue))

namespace JsValue

theorem ind {P : JsValue → Prop} (hundefined : P .undefined) (hnull : P .null)
    (hbool : ∀ b, P (.bool b)) (hnum : ∀ x, P (.num x)) (hstr : ∀ s, P (.str s))
    (hdate : ∀ t, P (.date t)) (harr : ∀ items, (∀ x ∈ items, P x) → P (.arr items))
    (hobj : ∀ props, (∀ p ∈ props, P p.2) → P (.obj props)) (v : JsValue) : P v :=
  @JsValue.rec P (fun items => ∀ x ∈ items, P x) (fun props => ∀ p ∈ props, P p.2)
    (fun p => P p.2) hundefined hnull hbool hnum hstr hdate harr hobj (by simp)
    (fun _ _ hx hrest => List.forall_mem_cons.mpr ⟨hx, hrest⟩) (by simp)
    (fun _ _ hp hrest => List.forall_mem_cons.mpr ⟨hp, hrest⟩) (fun _ _ hv => hv) v

end JsValue

/-! `Date.prototype.toISOString`, from the time value in milliseconds. -/

def padDigits (width n : ℕ) : JsString :=
  let digits := (naturalDigits n).map digitUnit
  List.replicate (width - digits.length) 48 ++ digits

/-- The proleptic Gregorian year, month and day of a day number. -/
def civilFromDays (days : ℤ) : ℤ × ℕ × ℕ :=
  let shifted := days + 719468
  let era := shifted / 146097
  let dayOfEra := (shifted % 146097).toNat
  let yearOfEra := (dayOfEra - dayOfEra / 1460 + dayOfEra / 36524 - dayOfEra / 146096) / 365
  let dayOfYear := dayOfEra - (365 * yearOfEra + yearOfEra / 4 - yearOfEra / 100)
  let month := (5 * dayOfYear + 2) / 153
  let day := dayOfYear - (153 * month + 2) / 5 + 1
  let civilMonth := if month < 10 then month + 3 else month - 9
  (yearOfEra + era * 400 + (if civilMonth ≤ 2 then 1 else 0), civilMonth, day)

def yearText (year : ℤ) : JsString :=
  if 0 ≤ year ∧ year ≤ 9999 then padDigits 4 year.toNat
  else (if year < 0 then 45 else 43) :: padDigits 6 year.natAbs

def toISOString (time : ℤ) : JsString :=
  let (year, month, day) := civilFromDays (time / 86400000)
  let ms := (time % 86400000).toNat
  yearText year ++ 45 :: padDigits 2 month ++ 45 :: padDigits 2 day ++
    84 :: padDigits 2 (ms / 3600000) ++ 58 :: padDigits 2 (ms / 60000 % 60) ++
    58 :: padDigits 2 (ms / 1000 % 60) ++ 46 :: padDigits 3 (ms % 1000) ++ [90]

/-- `Date.prototype.toJSON`. -/
def dateToJson : Option ℤ → Json
  | none => .null
  | some time => .str (toISOString time)

namespace JsValue

mutual

/-- SerializeJSONProperty up to the text; `none` is `undefined`. -/
def toJson : JsValue → Option Json
  | .undefined => none
  | .null => some .null
  | .bool b => some (.bool b)
  | .num (.finite x) => some (.num x)
  | .num _ => some .null
  | .str s => some (.str s)
  | .date time => some (dateToJson time)
  | .arr items => some (.arr (itemsToJson items))
  | .obj props => some (.obj (propsToJson props))

def itemsToJson : List JsValue → List Json
  | [] => []
  | x :: rest => (toJson x).getD .null :: itemsToJson rest

def propsToJson : List (JsString × JsValue) → List (JsString × Json)
  | [] => []
  | (k, v) :: rest =>
      match toJson v with
      | none => propsToJson rest
      | some j => (k, j) :: propsToJson rest

end

/-- `JSON.stringify(v)`. -/
def stringify (v : JsValue) : Option JsString :=
  v.toJson.map Json.print

mutual

/-- Objects have distinct keys in enumeration order, at every level. -/
def WellFormed : JsValue → Prop
  | .arr items => WellFormedItems items
  | .obj props => OwnOrder props ∧ WellFormedProps props
  | _ => True

def WellFormedItems : List JsValue → Prop
  | [] => True
  | x :: rest => WellFormed x ∧ WellFormedItems rest

def WellFormedProps : List (JsString × JsValue) → Prop
  | [] => True
  | (_, v) :: rest => WellFormed v ∧ WellFormedProps rest

end

theorem toJson_obj (props : List (JsString × JsValue)) :
    (JsValue.obj props).toJson = some (.obj (propsToJson props)) := rfl

theorem itemsToJson_eq_map (items : List JsValue) :
    itemsToJson items = items.map fun x => (toJson x).getD .null := by
  induction items with
  | nil => rfl
  | cons x rest ih => simp [itemsToJson, ih]

theorem propsToJson_eq_filterMap (props : List (JsString × JsValue)) :
    propsToJson props = props.filterMap fun p => (toJson p.2).map fun j => (p.1, j) := by
  induction props with
  | nil => rfl
  | cons p rest ih =>
      obtain ⟨k, v⟩ := p
      cases h : toJson v <;> simp [propsToJson, h, ih]

theorem wellFormedItems_iff (items : List JsValue) :
    WellFormedItems items ↔ ∀ x ∈ items, WellFormed x := by
  induction items with
  | nil => simp [WellFormedItems]
  | cons x rest ih => simp [WellFormedItems, ih]

theorem wellFormedProps_iff (props : List (JsString × JsValue)) :
    WellFormedProps props ↔ ∀ p ∈ props, WellFormed p.2 := by
  induction props with
  | nil => simp [WellFormedProps]
  | cons p rest ih => simp [WellFormedProps, ih]

theorem toJson_eq_none_iff (v : JsValue) : v.toJson = none ↔ v = .undefined := by
  cases v with
  | num x => cases x <;> simp [toJson]
  | _ => simp [toJson]

theorem ownOrder_propsToJson {props : List (JsString × JsValue)} (h : OwnOrder props) :
    OwnOrder (propsToJson props) := by
  rw [propsToJson_eq_filterMap]
  apply List.Pairwise.filterMap _ _ h
  intro p q hpq p' hp' q' hq'
  obtain ⟨j, -, rfl⟩ := Option.map_eq_some_iff.mp hp'
  obtain ⟨j', -, rfl⟩ := Option.map_eq_some_iff.mp hq'
  exact hpq

/-- The document of a well-formed value is well formed. -/
theorem toJson_wellFormed (v : JsValue) (hv : v.WellFormed) (j : Json) (h : v.toJson = some j) :
    j.WellFormed := by
  induction v using JsValue.ind generalizing j with
  | hundefined => simp [toJson] at h
  | hnull | hbool | hstr =>
      obtain rfl := Option.some.inj h
      trivial
  | hnum x =>
      cases x <;> simp only [toJson, Option.some.injEq] at h <;> subst h <;> trivial
  | hdate t =>
      obtain rfl := Option.some.inj h
      cases t <;> trivial
  | harr items ih =>
      obtain rfl := Option.some.inj h
      rw [WellFormed, wellFormedItems_iff] at hv
      rw [Json.WellFormed, Json.wellFormedItems_iff, itemsToJson_eq_map]
      intro y hy
      obtain ⟨x, hx, rfl⟩ := List.mem_map.mp hy
      cases hxj : x.toJson with
      | none => trivial
      | some j' => exact ih x hx (hv x hx) j' hxj
  | hobj props ih =>
      obtain rfl := Option.some.inj h
      obtain ⟨horder, hprops⟩ := hv
      rw [wellFormedProps_iff] at hprops
      refine ⟨ownOrder_propsToJson horder, ?_⟩
      rw [Json.wellFormedProps_iff, propsToJson_eq_filterMap]
      intro q hq
      obtain ⟨p, hp, hpq⟩ := List.mem_filterMap.mp hq
      obtain ⟨j', hj', rfl⟩ := Option.map_eq_some_iff.mp hpq
      exact ih p hp (hprops p hp) j' hj'

/-- Keys are kept by the conversion, so selecting by key commutes with it. -/
theorem propsToJson_filter (keep : JsString → Bool) (props : List (JsString × JsValue)) :
    propsToJson (props.filter fun p => keep p.1) =
      (propsToJson props).filter fun p => keep p.1 := by
  induction props with
  | nil => rfl
  | cons p rest ih =>
      obtain ⟨k, v⟩ := p
      cases hkeep : keep k <;> cases hv : toJson v <;> simp [propsToJson, hkeep, hv, ih]

theorem ownValue_propsToJson (props : List (JsString × JsValue)) (hnodup : (keys props).Nodup)
    (k : JsString) : ownValue (propsToJson props) k = (ownValue props k).bind toJson := by
  induction props with
  | nil => rfl
  | cons p rest ih =>
      obtain ⟨key, v⟩ := p
      have hrest : key ∉ keys rest ∧ (keys rest).Nodup := List.nodup_cons.mp hnodup
      cases hv : toJson v with
      | none =>
          rw [propsToJson, hv]
          by_cases hk : key = k
          · have habsent : ownValue rest k = none :=
              (ownValue_eq_none_iff rest k).mpr (hk ▸ hrest.1)
            simp [ownValue, hk, hv, ih hrest.2, habsent]
          · simp [ownValue, hk, ih hrest.2]
      | some j =>
          rw [propsToJson, hv]
          by_cases hk : key = k
          · simp [ownValue, hk, hv]
          · simp [ownValue, hk, ih hrest.2]

end JsValue

/-- An object with distinct keys in enumeration order, at every level. -/
structure PlainObject where
  props : Props JsValue
  wellFormed : (JsValue.obj props).WellFormed

/-! The value a document is parsed to. -/

namespace Json

mutual

def toValue : Json → JsValue
  | .null => .null
  | .bool b => .bool b
  | .num x => .num (.finite x)
  | .str s => .str s
  | .arr items => .arr (itemsToValue items)
  | .obj props => .obj (propsToValue props)

def itemsToValue : List Json → List JsValue
  | [] => []
  | x :: rest => toValue x :: itemsToValue rest

def propsToValue : List (JsString × Json) → List (JsString × JsValue)
  | [] => []
  | (k, v) :: rest => (k, toValue v) :: propsToValue rest

end

theorem itemsToValue_eq_map (items : List Json) : itemsToValue items = items.map toValue := by
  induction items with
  | nil => rfl
  | cons x rest ih => simp [itemsToValue, ih]

theorem propsToValue_eq_map (props : List (JsString × Json)) :
    propsToValue props = props.map fun p => (p.1, toValue p.2) := by
  induction props with
  | nil => rfl
  | cons p rest ih => simp [propsToValue, ih]

@[simp] theorem toJson_toValue (j : Json) : j.toValue.toJson = some j := by
  induction j using Json.ind with
  | hnull | hbool | hnum | hstr => rfl
  | harr items ih =>
      rw [toValue, JsValue.toJson, JsValue.itemsToJson_eq_map, itemsToValue_eq_map,
        List.map_map]
      have hitems : items.map ((fun x => (JsValue.toJson x).getD .null) ∘ toValue) = items := by
        conv_rhs => rw [← List.map_id items]
        apply List.map_congr_left
        intro x hx
        simp [ih x hx]
      rw [hitems]
  | hobj props ih =>
      rw [toValue, JsValue.toJson, JsValue.propsToJson_eq_filterMap, propsToValue_eq_map,
        List.filterMap_map]
      have hprops : props.filterMap
          ((fun p => (JsValue.toJson p.2).map fun j => (p.1, j)) ∘
            fun p => (p.1, toValue p.2)) = props := by
        rw [List.filterMap_congr (g := some)]
        · exact List.filterMap_some
        · intro p hp
          simp [ih p hp]
      rw [hprops]

end Json

end OpticsAgent.Ecma
