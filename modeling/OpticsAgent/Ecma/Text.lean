import Mathlib

/-!
ECMAScript strings are sequences of 16-bit code units, lone surrogates
included, ordered by code unit. This module has the embedding of source
literals, decimal and hexadecimal digits, and the string methods the agent
uses on wire text (`split`, `trim`, `join`).
-/

namespace OpticsAgent.Ecma

abbrev CodeUnit := Fin 65536

-- Named, so that every literal of the type means the same term in every module.
instance neZero_codeUnits : NeZero 65536 := ⟨by decide⟩

abbrev JsString := List CodeUnit

instance lawfulBEq_jsString : LawfulBEq JsString := inferInstance

/-- The UTF-16 code units of one code point. -/
def utf16 (c : Char) : JsString :=
  if c.toNat < 0x10000 then [Fin.ofNat _ c.toNat]
  else
    let v := c.toNat - 0x10000
    [Fin.ofNat _ (0xD800 + v / 0x400), Fin.ofNat _ (0xDC00 + v % 0x400)]

/-- A string literal of the source. -/
def js (s : String) : JsString :=
  s.toList.flatMap utf16

theorem js_ne_nil {s : String} (h : s ≠ "") : js s ≠ [] := by
  intro hnil
  apply h
  apply String.toList_eq_nil_iff.mp
  apply List.eq_nil_iff_forall_not_mem.mpr
  intro c hc
  have hunits := List.flatMap_eq_nil_iff.mp hnil c hc
  unfold utf16 at hunits
  split_ifs at hunits

def isHighSurrogate (c : CodeUnit) : Bool := 0xD800 ≤ c.val && c.val < 0xDC00

def isLowSurrogate (c : CodeUnit) : Bool := 0xDC00 ≤ c.val && c.val < 0xE000

/-! Decimal digits, most significant first. -/

abbrev Digit := Fin 10

instance neZero_digits : NeZero 10 := ⟨by decide⟩

def digitUnit (d : Digit) : CodeUnit := ⟨48 + d.val, by omega⟩

def digit? (c : CodeUnit) : Option Digit :=
  if h : 48 ≤ c.val ∧ c.val < 58 then some ⟨c.val - 48, by omega⟩ else none

@[simp] theorem digit?_digitUnit (d : Digit) : digit? (digitUnit d) = some d := by
  revert d
  decide

/-- The longest run of digits at the front. -/
def spanDigits : JsString → List Digit × JsString
  | [] => ([], [])
  | c :: rest =>
      match digit? c with
      | some d => (d :: (spanDigits rest).1, (spanDigits rest).2)
      | none => ([], c :: rest)

/-- What follows a run of digits does not start with one. -/
def StartsNoDigit (rest : JsString) : Prop :=
  ∀ c, rest.head? = some c → digit? c = none

theorem spanDigits_digitUnits (ds : List Digit) (rest : JsString) (h : StartsNoDigit rest) :
    spanDigits (ds.map digitUnit ++ rest) = (ds, rest) := by
  induction ds with
  | nil =>
      cases rest with
      | nil => rfl
      | cons c tail =>
          have hc : digit? c = none := h c rfl
          simp [spanDigits, hc]
  | cons d ds ih =>
      simp [spanDigits, ih]

/-- The number a digit sequence denotes. -/
def decimalValue (ds : List Digit) : ℕ :=
  ds.foldl (fun acc d => 10 * acc + d.val) 0

theorem decimalValue_append (xs ys : List Digit) :
    decimalValue (xs ++ ys) = decimalValue xs * 10 ^ ys.length + decimalValue ys := by
  induction ys using List.reverseRecOn with
  | nil => simp [decimalValue]
  | append_singleton ys d ih =>
      have hsnoc (zs : List Digit) : decimalValue (zs ++ [d]) = 10 * decimalValue zs + d.val := by
        simp [decimalValue]
      rw [← List.append_assoc, hsnoc, hsnoc, ih, List.length_append, List.length_singleton,
        pow_succ]
      ring

@[simp] theorem decimalValue_replicate_zero (n : ℕ) :
    decimalValue (List.replicate n 0) = 0 := by
  induction n with
  | zero => rfl
  | succ n ih =>
      rw [List.replicate_succ', decimalValue_append, ih]
      rfl

/-- The digits of a positive number, without leading zeros. -/
def positiveDigits (n : ℕ) : List Digit :=
  ((Nat.digits 10 n).map (Fin.ofNat 10)).reverse

/-- `String(n)` for a natural number, as digits. -/
def naturalDigits (n : ℕ) : List Digit :=
  if n = 0 then [0] else positiveDigits n

@[simp] theorem decimalValue_positiveDigits (n : ℕ) : decimalValue (positiveDigits n) = n := by
  have hval (ds : List ℕ) (hds : ∀ d ∈ ds, d < 10) :
      decimalValue (ds.map (Fin.ofNat 10)).reverse = Nat.ofDigits 10 ds := by
    induction ds with
    | nil => rfl
    | cons d ds ih =>
        have hd : d < 10 := hds d (by simp)
        have hrest := ih (fun x hx => hds x (by simp [hx]))
        have hlast : decimalValue [Fin.ofNat 10 d] = d := by
          simp [decimalValue, Nat.mod_eq_of_lt hd]
        rw [List.map_cons, List.reverse_cons, decimalValue_append, hrest, hlast,
          Nat.ofDigits_cons]
        simp
        ring
  unfold positiveDigits
  rw [hval _ (fun d hd => Nat.digits_lt_base (by norm_num) hd), Nat.ofDigits_digits]

@[simp] theorem decimalValue_naturalDigits (n : ℕ) : decimalValue (naturalDigits n) = n := by
  unfold naturalDigits
  split_ifs with h
  · rw [h]
    rfl
  · exact decimalValue_positiveDigits n

theorem naturalDigits_ne_nil (n : ℕ) : naturalDigits n ≠ [] := by
  unfold naturalDigits
  split_ifs with h
  · simp
  · simpa [positiveDigits, Nat.digits_ne_nil_iff_ne_zero] using h

/-! Lower-case hexadecimal digits. -/

instance neZero_hexDigits : NeZero 16 := ⟨by decide⟩

def hexUnit (d : Fin 16) : CodeUnit :=
  if d.val < 10 then ⟨48 + d.val, by omega⟩ else ⟨87 + d.val, by omega⟩

def hexValue? (c : CodeUnit) : Option (Fin 16) :=
  if h : 48 ≤ c.val ∧ c.val < 58 then some ⟨c.val - 48, by omega⟩
  else if h : 97 ≤ c.val ∧ c.val < 103 then some ⟨c.val - 87, by omega⟩
  else if h : 65 ≤ c.val ∧ c.val < 71 then some ⟨c.val - 55, by omega⟩
  else none

@[simp] theorem hexValue?_hexUnit (d : Fin 16) : hexValue? (hexUnit d) = some d := by
  revert d
  decide

/-- The four hexadecimal digits of a code unit. -/
def hex4 (c : CodeUnit) : JsString :=
  [Fin.ofNat 16 (c.val / 4096), Fin.ofNat 16 (c.val / 256), Fin.ofNat 16 (c.val / 16),
    Fin.ofNat 16 c.val].map hexUnit

def unhex4 (a b c d : CodeUnit) : Option CodeUnit := do
  let w ← hexValue? a
  let x ← hexValue? b
  let y ← hexValue? c
  let z ← hexValue? d
  return Fin.ofNat _ (4096 * w.val + 256 * x.val + 16 * y.val + z.val)

theorem unhex4_hex4 (u : CodeUnit) :
    ∃ a b c d, hex4 u = [a, b, c, d] ∧ unhex4 a b c d = some u := by
  refine ⟨_, _, _, _, rfl, ?_⟩
  simp only [unhex4, hexValue?_hexUnit, Option.bind_eq_bind, Option.bind_some, Option.pure_def,
    Option.some.injEq, Fin.ofNat]
  apply Fin.ext
  simp only
  have hu := u.isLt
  omega

/-! String methods. -/

/-- `text.split(sep)` for a one-unit separator. -/
def splitUnit (sep : CodeUnit) : JsString → List JsString
  | [] => [[]]
  | c :: rest =>
      if c = sep then [] :: splitUnit sep rest
      else
        match splitUnit sep rest with
        | [] => [[c]]
        | part :: parts => (c :: part) :: parts

/-- White space and line terminators, as `trim` removes them. -/
def isTrimmed (c : CodeUnit) : Bool :=
  (9 ≤ c.val && c.val ≤ 13) || c.val == 0x20 || c.val == 0xA0 || c.val == 0x1680 ||
    (0x2000 ≤ c.val && c.val ≤ 0x200A) || c.val == 0x2028 || c.val == 0x2029 ||
    c.val == 0x202F || c.val == 0x205F || c.val == 0x3000 || c.val == 0xFEFF

def trim (s : JsString) : JsString :=
  ((s.dropWhile isTrimmed).reverse.dropWhile isTrimmed).reverse

end OpticsAgent.Ecma
