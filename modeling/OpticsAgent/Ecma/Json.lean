import Mathlib
import OpticsAgent.Ecma.NumberText
import OpticsAgent.Ecma.Property

/-!
JSON documents and their text. A document is what `JSON.stringify` has after
`toJSON`, `undefined` and the non-finite numbers are dealt with; `Json.print`
is its serialization without indentation, with the well-formed quoting of lone
surrogates.
-/

namespace OpticsAgent.Ecma

inductive Json where
  | null
  | bool (b : Bool)
  | num (x : Double)
  | str (s : JsString)
  | arr (items : List Json)
  | obj (props : List (JsString × Json))

namespace Json

/-- Induction over a document, with the hypothesis for every element and every
property value. -/
theorem ind {P : Json → Prop} (hnull : P .null) (hbool : ∀ b, P (.bool b))
    (hnum : ∀ x, P (.num x)) (hstr : ∀ s, P (.str s))
    (harr : ∀ items, (∀ x ∈ items, P x) → P (.arr items))
    (hobj : ∀ props, (∀ p ∈ props, P p.2) → P (.obj props)) (j : Json) : P j :=
  @Json.rec P (fun items => ∀ x ∈ items, P x) (fun props => ∀ p ∈ props, P p.2) (fun p => P p.2)
    hnull hbool hnum hstr harr hobj (by simp)
    (fun _ _ hx hrest => List.forall_mem_cons.mpr ⟨hx, hrest⟩) (by simp)
    (fun _ _ hp hrest => List.forall_mem_cons.mpr ⟨hp, hrest⟩) (fun _ _ hv => hv) j

end Json

/-- The escape of one code unit inside a string literal. -/
def escapeUnit (c : CodeUnit) : JsString :=
  if c = 34 then [92, 34]
  else if c = 92 then [92, 92]
  else if c = 8 then [92, 98]
  else if c = 12 then [92, 102]
  else if c = 10 then [92, 110]
  else if c = 13 then [92, 114]
  else if c = 9 then [92, 116]
  else if c.val < 32 || isHighSurrogate c || isLowSurrogate c then 92 :: 117 :: hex4 c
  else [c]

/-- The body of a string literal. `inPair` says that the unit before was the
high half of a surrogate pair, so that the next unit is copied. -/
def quoteUnits (inPair : Bool) : JsString → JsString
  | [] => []
  | c :: rest =>
      if inPair then c :: quoteUnits false rest
      else if isHighSurrogate c && (rest.head?.map isLowSurrogate).getD false then
        c :: quoteUnits true rest
      else escapeUnit c ++ quoteUnits false rest

def quote (s : JsString) : JsString :=
  34 :: quoteUnits false s ++ [34]

namespace Json

mutual

def print : Json → JsString
  | .null => js "null"
  | .bool true => js "true"
  | .bool false => js "false"
  | .num x => (numberLiteral x).text
  | .str s => quote s
  | .arr [] => [91, 93]
  | .arr (x :: rest) => 91 :: print x ++ printItems rest
  | .obj [] => [123, 125]
  | .obj ((k, v) :: rest) => 123 :: quote k ++ 58 :: print v ++ printProps rest

/-- The elements after the first, and the closing bracket. -/
def printItems : List Json → JsString
  | [] => [93]
  | x :: rest => 44 :: print x ++ printItems rest

/-- The members after the first, and the closing brace. -/
def printProps : List (JsString × Json) → JsString
  | [] => [125]
  | (k, v) :: rest => 44 :: quote k ++ 58 :: print v ++ printProps rest

end

/-! Object keys are distinct and in enumeration order, at every level. -/

mutual

def WellFormed : Json → Prop
  | .arr items => WellFormedItems items
  | .obj props => OwnOrder props ∧ WellFormedProps props
  | _ => True

def WellFormedItems : List Json → Prop
  | [] => True
  | x :: rest => WellFormed x ∧ WellFormedItems rest

def WellFormedProps : List (JsString × Json) → Prop
  | [] => True
  | (_, v) :: rest => WellFormed v ∧ WellFormedProps rest

end

theorem wellFormedItems_iff (items : List Json) :
    WellFormedItems items ↔ ∀ x ∈ items, WellFormed x := by
  induction items with
  | nil => simp [WellFormedItems]
  | cons x rest ih => simp [WellFormedItems, ih]

theorem wellFormedProps_iff (props : List (JsString × Json)) :
    WellFormedProps props ↔ ∀ p ∈ props, WellFormed p.2 := by
  induction props with
  | nil => simp [WellFormedProps]
  | cons p rest ih => simp [WellFormedProps, ih]

/-! Reading a printed document back turns `-0` into `0` and changes nothing
else. -/

mutual

def clearNegZero : Json → Json
  | .num x => .num x.clearNegZero
  | .arr items => .arr (clearItems items)
  | .obj props => .obj (clearProps props)
  | j => j

def clearItems : List Json → List Json
  | [] => []
  | x :: rest => clearNegZero x :: clearItems rest

def clearProps : List (JsString × Json) → List (JsString × Json)
  | [] => []
  | (k, v) :: rest => (k, clearNegZero v) :: clearProps rest

end

theorem clearItems_eq_map (items : List Json) : clearItems items = items.map clearNegZero := by
  induction items with
  | nil => rfl
  | cons x rest ih => simp [clearItems, ih]

theorem clearProps_eq_map (props : List (JsString × Json)) :
    clearProps props = props.map fun p => (p.1, clearNegZero p.2) := by
  induction props with
  | nil => rfl
  | cons p rest ih => simp [clearProps, ih]

/-- The sign of zero does not reach the text. -/
theorem print_clearNegZero (j : Json) : j.clearNegZero.print = j.print := by
  have hitems (items : List Json) (h : ∀ x ∈ items, x.clearNegZero.print = x.print) :
      printItems (clearItems items) = printItems items := by
    induction items with
    | nil => rfl
    | cons x rest ih =>
        obtain ⟨hx, hrest⟩ := List.forall_mem_cons.mp h
        rw [clearItems, printItems, printItems, hx, ih hrest]
  have hprops (props : List (JsString × Json))
      (h : ∀ p ∈ props, p.2.clearNegZero.print = p.2.print) :
      printProps (clearProps props) = printProps props := by
    induction props with
    | nil => rfl
    | cons p rest ih =>
        obtain ⟨k, v⟩ := p
        obtain ⟨hv, hrest⟩ := List.forall_mem_cons.mp h
        rw [clearProps, printProps, printProps, hv, ih hrest]
  induction j using Json.ind with
  | hnull | hbool | hstr => rfl
  | hnum x => exact congrArg Literal.text (numberLiteral_clearNegZero x)
  | harr items ih =>
      cases items with
      | nil => rfl
      | cons x rest =>
          obtain ⟨hx, hrest⟩ := List.forall_mem_cons.mp ih
          rw [clearNegZero, clearItems, print, print, hx, hitems rest hrest]
  | hobj props ih =>
      cases props with
      | nil => rfl
      | cons p rest =>
          obtain ⟨k, v⟩ := p
          obtain ⟨hv, hrest⟩ := List.forall_mem_cons.mp ih
          rw [clearNegZero, clearProps, print, print, hv, hprops rest hrest]

end Json

/-- A document as a language value holds it: every object has distinct keys in
enumeration order. -/
structure JsonDocument where
  json : Json
  wellFormed : json.WellFormed

end OpticsAgent.Ecma
