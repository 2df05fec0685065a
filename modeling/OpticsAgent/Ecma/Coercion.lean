import Mathlib
import OpticsAgent.Ecma.StringToNumber
import OpticsAgent.Ecma.JsonParse

/-!
What the operators do to values read from JSON, whatever their type: truth,
`??`, `String`, `Number`, property access, and the errors these may throw.
-/

namespace OpticsAgent.Ecma

/-- A thrown error object. -/
structure JsError where
  name : JsString
  message : JsString
deriving DecidableEq

namespace JsError

/-- `new Error(message)`. -/
def error (message : JsString) : JsError := ⟨js "Error", message⟩

def typeError (message : JsString) : JsError := ⟨js "TypeError", message⟩

/-- `String(e)`. -/
def text (e : JsError) : JsString :=
  if e.name = [] then e.message
  else if e.message = [] then e.name
  else e.name ++ js ": " ++ e.message

end JsError

/-- `text.includes(part)`. -/
def includes (text part : JsString) : Bool :=
  decide (part <:+: text)

/-- `text.startsWith(part)`. -/
def startsWith (text part : JsString) : Bool :=
  part.isPrefixOf text

theorem startsWith_iff {text part : JsString} :
    startsWith text part = true ↔ ∃ rest, text = part ++ rest := by
  rw [startsWith, List.isPrefixOf_iff_prefix]
  constructor
  · rintro ⟨rest, hrest⟩
    exact ⟨rest, hrest.symm⟩
  · rintro ⟨rest, hrest⟩
    exact ⟨rest, hrest.symm⟩

namespace JsValue

/-- `Boolean(v)`. -/
def truthy : JsValue → Bool
  | .undefined => false
  | .null => false
  | .bool b => b
  | .num (.finite x) => x.mag != 0
  | .num .nan => false
  | .num (.infinity _) => true
  | .str s => s != []
  | .date _ => true
  | .arr _ => true
  | .obj _ => true

/-- `v ?? w`. -/
def orElse : JsValue → JsValue → JsValue
  | .undefined, w => w
  | .null, w => w
  | v, _ => v

mutual

/-- `String(v)`. No date comes out of `JSON.parse`, so its local text, which
depends on the time zone, is not modelled. -/
def toText : JsValue → JsString
  | .undefined => js "undefined"
  | .null => js "null"
  | .bool true => js "true"
  | .bool false => js "false"
  | .num x => x.toText
  | .str s => s
  | .date _ => js "Invalid Date"
  | .arr items => [44].intercalate (itemTexts items)
  | .obj _ => js "[object Object]"

/-- The elements as `Array.prototype.join` prints them. -/
def itemTexts : List JsValue → List JsString
  | [] => []
  | .undefined :: rest => [] :: itemTexts rest
  | .null :: rest => [] :: itemTexts rest
  | x :: rest => toText x :: itemTexts rest

end

/-- `Number(v)`. -/
def toNumber : JsValue → Number
  | .undefined => .nan
  | .null => .ofInt 0
  | .bool b => .ofInt (if b then 1 else 0)
  | .num x => x
  | .date (some time) => .ofInt time
  | .date none => .nan
  | v => numberOfText v.toText

/-- `v[key]` for a key that is on no prototype. -/
def member (v : JsValue) (key : JsString) : Except JsError JsValue :=
  match v with
  | .undefined =>
      .error (.typeError (js "Cannot read properties of undefined (reading '" ++ key ++ js "')"))
  | .null =>
      .error (.typeError (js "Cannot read properties of null (reading '" ++ key ++ js "')"))
  | .obj props => .ok ((ownValue props key).getD .undefined)
  | _ => .ok .undefined

end JsValue

end OpticsAgent.Ecma
