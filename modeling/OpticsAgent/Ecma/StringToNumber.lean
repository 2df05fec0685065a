import Mathlib
import OpticsAgent.Ecma.Number
import OpticsAgent.Ecma.Text

/-!
`Number(text)`: the string grammar of numeric literals, and `Number.isInteger`.
-/

namespace OpticsAgent.Ecma

/-- The value of a digit string in a radix of at most 16; `none` when a unit is
no digit of it. -/
def radixValue? (radix : ℕ) (digits : JsString) : Option ℕ :=
  digits.foldl (fun acc c => do
    let value ← acc
    let d ← hexValue? c
    if d.val < radix then some (value * radix + d.val) else none) (some 0)

/-- `0x`, `0o` and `0b` literals. -/
def radixLiteral? : JsString → Option ℕ
  | 48 :: letter :: digits =>
      if digits = [] then none
      else if letter = 120 ∨ letter = 88 then radixValue? 16 digits
      else if letter = 111 ∨ letter = 79 then radixValue? 8 digits
      else if letter = 98 ∨ letter = 66 then radixValue? 2 digits
      else none
  | _ => none

/-- A signed exponent with at least one digit and nothing behind it. -/
def exponentValue? (s : JsString) : Option ℤ :=
  let (neg, digits) := match s with
    | 45 :: rest => (true, rest)
    | 43 :: rest => (false, rest)
    | rest => (false, rest)
  match spanDigits digits with
  | (d :: ds, []) => some (if neg then -decimalValue (d :: ds) else decimalValue (d :: ds))
  | _ => none

/-- An unsigned decimal literal; digits may be missing on one side of the
point. -/
def decimalLiteral? (s : JsString) : Option ℚ :=
  let (int, afterInt) := spanDigits s
  let (frac, afterFrac) := match afterInt with
    | 46 :: rest => spanDigits rest
    | rest => ([], rest)
  if int ++ frac = [] then none
  else
    let exponent : Option ℤ := match afterFrac with
      | [] => some 0
      | e :: rest => if e = 101 ∨ e = 69 then exponentValue? rest else none
    exponent.map fun e : ℤ => (decimalValue (int ++ frac) : ℚ) * 10 ^ (e - (frac.length : ℤ))

/-- `Number(text)`. -/
def numberOfText (text : JsString) : Number :=
  let body := trim text
  if body = [] then Number.ofInt 0
  else
    match radixLiteral? body with
    | some n => Number.ofInt n
    | none =>
        let (neg, digits) := match body with
          | 45 :: rest => (true, rest)
          | 43 :: rest => (false, rest)
          | rest => (false, rest)
        if digits = js "Infinity" then .infinity neg
        else
          match decimalLiteral? digits with
          | some q => Number.roundSigned neg q
          | none => .nan

/-- `Number.isInteger(x)`, with the integer. -/
def Number.toInteger? : Number → Option ℤ
  | .finite x => if x.value.den = 1 then some x.value.num else none
  | _ => none

example : (numberOfText (js " 8e3 ")).toInteger? = some 8000 := by decide +kernel

end OpticsAgent.Ecma
