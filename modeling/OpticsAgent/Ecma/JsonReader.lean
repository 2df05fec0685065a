import Mathlib
import OpticsAgent.Ecma.JsonParse

/-!
How `JSON.parse` reads, one call at a time: what each call gives holds by one
induction, and does not depend on the fuel nor on what follows what was read.
-/

namespace OpticsAgent.Ecma

/-! ## String literals -/

theorem parseString_close (rest : JsString) : parseString (34 :: rest) = some ([], rest) := by
  rw [parseString.eq_def]
  rfl

theorem parseString_unicode (w x y z : CodeUnit) (s : JsString) :
    parseString (92 :: 117 :: w :: x :: y :: z :: s) =
      (unhex4 w x y z).bind fun u => (parseString s).map fun p => (u :: p.1, p.2) := by
  rw [parseString.eq_def]
  rfl

theorem parseString_simple {e : CodeUnit} (h : e ≠ 117) (s : JsString) :
    parseString (92 :: e :: s) =
      (simpleEscape? e).bind fun u => (parseString s).map fun p => (u :: p.1, p.2) := by
  rw [parseString.eq_def]
  simp [h]

/-- A string literal closes, or goes on after an escape or a plain unit. -/
theorem parseString_ind {P : JsString → JsString → JsString → Prop}
    (close : ∀ rest, P (34 :: rest) [] rest)
    (unicode : ∀ w x y z u s key rest, unhex4 w x y z = some u → P s key rest →
      P (92 :: 117 :: w :: x :: y :: z :: s) (u :: key) rest)
    (simple : ∀ e u s key rest, simpleEscape? e = some u → P s key rest →
      P (92 :: e :: s) (u :: key) rest)
    (plain : ∀ c s key rest, c ≠ 34 → c ≠ 92 → 32 ≤ c.val → P s key rest →
      P (c :: s) (c :: key) rest)
    {s key rest : JsString} (h : parseString s = some (key, rest)) : P s key rest := by
  induction s using parseString.induct generalizing key with
  | case1 => simp [parseString] at h
  | case2 s =>
      rw [parseString_close] at h
      obtain ⟨rfl, rfl⟩ := Prod.mk.inj (Option.some.inj h)
      exact close _
  | case3 => simp [parseString] at h
  | case4 w x y z s _ ih =>
      obtain ⟨u, hu, hs⟩ := Option.bind_eq_some_iff.mp (parseString_unicode w x y z s ▸ h)
      obtain ⟨⟨key', rest'⟩, hkey, hpair⟩ := Option.map_eq_some_iff.mp hs
      obtain ⟨rfl, rfl⟩ := Prod.mk.inj hpair
      exact unicode _ _ _ _ _ _ _ _ hu (ih hkey)
  | case5 s hshort =>
      simp [parseString] at h
  | case6 e s hunicode _ ih =>
      obtain ⟨u, hu, hs⟩ := Option.bind_eq_some_iff.mp (parseString_simple hunicode s ▸ h)
      obtain ⟨⟨key', rest'⟩, hkey, hpair⟩ := Option.map_eq_some_iff.mp hs
      obtain ⟨rfl, rfl⟩ := Prod.mk.inj hpair
      exact simple _ _ _ _ _ hu (ih hkey)
  | case7 c s hquote hback hcontrol =>
      rw [parseString.eq_def] at h
      simp [hquote, hback, hcontrol] at h
  | case8 c s hquote hback hcontrol ih =>
      rw [parseString_plain s hquote hback (not_lt.mp hcontrol)] at h
      obtain ⟨⟨key', rest'⟩, hkey, hpair⟩ := Option.map_eq_some_iff.mp h
      obtain ⟨rfl, rfl⟩ := Prod.mk.inj hpair
      exact plain _ _ _ _ hquote hback (not_lt.mp hcontrol) (ih hkey)

theorem parseString_append {s key rest : JsString} (h : parseString s = some (key, rest))
    (more : JsString) : parseString (s ++ more) = some (key, rest ++ more) := by
  apply parseString_ind (P := fun s key rest => parseString (s ++ more) = some (key, rest ++ more))
    _ _ _ _ h
  · intro rest
    exact parseString_close _
  · intro w x y z u s key rest hu ih
    simp only [List.cons_append, parseString_unicode, hu, ih, Option.bind_some, Option.map_some]
  · intro e u s key rest hu ih
    have hunicode : e ≠ 117 := by
      rintro rfl
      simp [simpleEscape?] at hu
    simp only [List.cons_append, parseString_simple hunicode, hu, ih, Option.bind_some,
      Option.map_some]
  · intro c s key rest hquote hback hcontrol ih
    rw [List.cons_append, parseString_plain _ hquote hback hcontrol, ih]
    rfl

/-! ## Numbers -/

def isNumberUnit (c : CodeUnit) : Bool :=
  (digit? c).isSome || [43, 45, 46, 69, 101].contains c

/-- A number is read off units of its own, and does not depend on what follows
unless it may go on there. -/
def NumberPart {α : Type} (parse : JsString → Option (α × JsString)) : Prop :=
  ∀ s x rest, parse s = some (x, rest) →
    (∃ used, s = used ++ rest ∧ ∀ c ∈ used, isNumberUnit c = true) ∧
      (rest ≠ [] → ∀ more, parse (s ++ more) = some (x, rest ++ more))

theorem numberUnit_of_digit {c : CodeUnit} (h : digit? c ≠ none) : isNumberUnit c = true := by
  simp [isNumberUnit, Option.isSome_iff_ne_none.mpr h]

theorem spanDigits_append {ds : List Digit} {s rest : JsString} (h : spanDigits s = (ds, rest))
    (hrest : rest ≠ []) (more : JsString) : spanDigits (s ++ more) = (ds, rest ++ more) := by
  induction s generalizing ds with
  | nil =>
      rw [spanDigits] at h
      exact absurd (Prod.mk.inj h).2.symm hrest
  | cons c s ih =>
      rw [spanDigits] at h
      rw [List.cons_append, spanDigits]
      cases hc : digit? c with
      | none =>
          rw [hc] at h
          obtain ⟨rfl, rfl⟩ := Prod.mk.inj h
          rfl
      | some d =>
          rw [hc] at h
          obtain ⟨rfl, htail⟩ := Prod.mk.inj h
          rw [ih (Prod.ext rfl htail)]

theorem spanDigits_used (s : JsString) :
    ∃ used, s = used ++ (spanDigits s).2 ∧ ∀ c ∈ used, isNumberUnit c = true := by
  induction s with
  | nil => exact ⟨[], rfl, by simp⟩
  | cons c s ih =>
      rw [spanDigits]
      cases hc : digit? c with
      | none => exact ⟨[], rfl, by simp⟩
      | some d =>
          obtain ⟨used, hused, hall⟩ := ih
          refine ⟨c :: used, congrArg (c :: ·) hused, List.forall_mem_cons.mpr ⟨?_, hall⟩⟩
          exact numberUnit_of_digit (by simp [hc])

theorem numberPart_spanDigits : NumberPart fun s => some (spanDigits s) := by
  intro s ds rest h
  obtain ⟨hds, hrest⟩ := Prod.mk.inj (Option.some.inj h)
  refine ⟨hrest ▸ spanDigits_used s, fun hne more => ?_⟩
  exact congrArg some (spanDigits_append (Option.some.inj h) hne more)

theorem numberPart_parseInt : NumberPart parseInt := by
  intro s int rest h
  cases s with
  | nil => cases h
  | cons c s =>
      cases hc : digit? c with
      | none => simp [parseInt, hc] at h
      | some d =>
          have hunit := numberUnit_of_digit (c := c) (by simp [hc])
          by_cases hd : d = 0
          · simp only [parseInt, hc, hd, if_true] at h
            obtain ⟨rfl, rfl⟩ := Prod.mk.inj (Option.some.inj h)
            refine ⟨⟨[c], rfl, by simpa using hunit⟩, fun _ more => ?_⟩
            simp [parseInt, hc, hd]
          · simp only [parseInt, hc, hd, if_false] at h
            obtain ⟨rfl, rfl⟩ := Prod.mk.inj (Option.some.inj h)
            obtain ⟨⟨used, hused, hall⟩, hmore⟩ := numberPart_spanDigits s _ _ rfl
            refine ⟨⟨c :: used, congrArg (c :: ·) hused, List.forall_mem_cons.mpr ⟨hunit, hall⟩⟩,
              fun hrest more => ?_⟩
            simp [parseInt, hc, hd, Option.some.inj (hmore hrest more)]

theorem numberPart_parseFraction : NumberPart parseFraction := by
  intro s frac rest h
  cases s with
  | nil =>
      obtain ⟨rfl, rfl⟩ := Prod.mk.inj (Option.some.inj h)
      exact ⟨⟨[], rfl, by simp⟩, fun hrest => absurd rfl hrest⟩
  | cons c s =>
      by_cases hc : c = 46
      · subst hc
        cases hds : (spanDigits s).1 with
        | nil => simp [parseFraction, hds] at h
        | cons d ds =>
            simp only [parseFraction, if_true, hds] at h
            obtain ⟨rfl, rfl⟩ := Prod.mk.inj (Option.some.inj h)
            obtain ⟨⟨used, hused, hall⟩, hmore⟩ := numberPart_spanDigits s _ _ rfl
            refine ⟨⟨46 :: used, congrArg (46 :: ·) hused,
              List.forall_mem_cons.mpr ⟨by decide, hall⟩⟩, fun hrest more => ?_⟩
            simp [parseFraction, Option.some.inj (hmore hrest more), hds]
      · simp only [parseFraction, hc, if_false] at h
        obtain ⟨rfl, rfl⟩ := Prod.mk.inj (Option.some.inj h)
        refine ⟨⟨[], rfl, by simp⟩, fun _ more => ?_⟩
        simp [parseFraction, hc]

/-- The digits of an exponent, after its sign. -/
def exponentDigits (neg : Bool) (s : JsString) : Option (Option ℤ × JsString) :=
  match (spanDigits s).1 with
  | [] => none
  | d :: ds =>
      let value : ℤ := decimalValue (d :: ds)
      some (some (if neg then -value else value), (spanDigits s).2)

theorem numberPart_exponentDigits (neg : Bool) : NumberPart (exponentDigits neg) := by
  intro s exp rest h
  unfold exponentDigits at h ⊢
  cases hds : (spanDigits s).1 with
  | nil => simp [hds] at h
  | cons d ds =>
      simp only [hds] at h
      obtain ⟨rfl, rfl⟩ := Prod.mk.inj (Option.some.inj h)
      obtain ⟨hused, hmore⟩ := numberPart_spanDigits s _ _ rfl
      refine ⟨hused, fun hrest more => ?_⟩
      simp [Option.some.inj (hmore hrest more), hds]

/-- What a part reads after units of its own. -/
theorem NumberPart.after {α : Type} {parse parse' : JsString → Option (α × JsString)}
    (hpart : NumberPart parse') (front : JsString) {s rest : JsString} {x : α}
    (hfront : ∀ c ∈ front, isNumberUnit c = true)
    (heq : ∀ more, parse (front ++ (s ++ more)) = parse' (s ++ more))
    (h : parse (front ++ s) = some (x, rest)) :
    (∃ used, front ++ s = used ++ rest ∧ ∀ c ∈ used, isNumberUnit c = true) ∧
      (rest ≠ [] → ∀ more, parse (front ++ s ++ more) = some (x, rest ++ more)) := by
  have hread := heq []
  rw [List.append_nil, h] at hread
  obtain ⟨⟨used, hused, hall⟩, hmore⟩ := hpart s x rest hread.symm
  refine ⟨⟨front ++ used, ?_, ?_⟩, fun hrest more => ?_⟩
  · rw [hused, List.append_assoc]
  · exact fun c hc => (List.mem_append.mp hc).elim (hfront c) (hall c)
  · rw [List.append_assoc, heq, hmore hrest more]

theorem numberPart_parseExponent : NumberPart parseExponent := by
  intro s exp rest h
  cases s with
  | nil =>
      obtain ⟨rfl, rfl⟩ := Prod.mk.inj (Option.some.inj h)
      exact ⟨⟨[], rfl, by simp⟩, fun hrest => absurd rfl hrest⟩
  | cons c s =>
      by_cases hc : c = 101 ∨ c = 69
      · have hunit : isNumberUnit c = true := by
          rcases hc with rfl | rfl <;> decide
        cases s with
        | nil => simp [parseExponent, hc, spanDigits] at h
        | cons sign t =>
            by_cases hplus : sign = 43
            · subst hplus
              apply (numberPart_exponentDigits false).after [c, 43] _ _ h
              · simp [hunit]
                decide
              · intro more
                simp only [parseExponent, hc, List.cons_append, List.nil_append, if_true]
                rfl
            by_cases hminus : sign = 45
            · subst hminus
              apply (numberPart_exponentDigits true).after [c, 45] _ _ h
              · simp [hunit]
                decide
              · intro more
                simp only [parseExponent, hc, List.cons_append, List.nil_append, if_true]
                rfl
            · apply (numberPart_exponentDigits false).after [c] _ _ h
              · simpa using hunit
              · intro more
                simp [parseExponent, hc, hplus, hminus]
                rfl
      · simp only [parseExponent, hc, if_false] at h
        obtain ⟨rfl, rfl⟩ := Prod.mk.inj (Option.some.inj h)
        refine ⟨⟨[], rfl, by simp⟩, fun _ more => ?_⟩
        simp [parseExponent, hc]

/-- A literal, after its sign. -/
def unsignedLiteral (neg : Bool) (s : JsString) : Option (Literal × JsString) :=
  match parseInt s with
  | none => none
  | some (int, afterInt) =>
      match parseFraction afterInt with
      | none => none
      | some (frac, afterFrac) =>
          match parseExponent afterFrac with
          | none => none
          | some (exp, rest) => some (⟨neg, int, frac, exp⟩, rest)

theorem numberPart_unsignedLiteral (neg : Bool) : NumberPart (unsignedLiteral neg) := by
  intro s lit rest h
  unfold unsignedLiteral at h
  cases hint : parseInt s with
  | none => simp [hint] at h
  | some p =>
  obtain ⟨int, afterInt⟩ := p
  cases hfrac : parseFraction afterInt with
  | none => simp [hint, hfrac] at h
  | some p =>
  obtain ⟨frac, afterFrac⟩ := p
  cases hexp : parseExponent afterFrac with
  | none => simp [hint, hfrac, hexp] at h
  | some p =>
  obtain ⟨exp, afterExp⟩ := p
  simp only [hint, hfrac, hexp] at h
  obtain ⟨rfl, rfl⟩ := Prod.mk.inj (Option.some.inj h)
  obtain ⟨⟨usedInt, rfl, hallInt⟩, hmoreInt⟩ := numberPart_parseInt _ _ _ hint
  obtain ⟨⟨usedFrac, rfl, hallFrac⟩, hmoreFrac⟩ := numberPart_parseFraction _ _ _ hfrac
  obtain ⟨⟨usedExp, rfl, hallExp⟩, hmoreExp⟩ := numberPart_parseExponent _ _ _ hexp
  refine ⟨⟨usedInt ++ (usedFrac ++ usedExp), by simp, ?_⟩, fun hrest more => ?_⟩
  · intro c hc
    rcases List.mem_append.mp hc with hc | hc
    · exact hallInt c hc
    · exact (List.mem_append.mp hc).elim (hallFrac c) (hallExp c)
  · have hmoreFrac := hmoreFrac (by simp [hrest]) more
    have hmoreInt := hmoreInt (by simp [hrest]) more
    simp only [unsignedLiteral, hmoreInt, hmoreFrac, hmoreExp hrest more]

theorem numberPart_parseLiteral : NumberPart parseLiteral := by
  intro s lit rest h
  cases s with
  | nil => simp [parseLiteral, parseInt] at h
  | cons c s =>
      by_cases hc : c = 45
      · subst hc
        apply (numberPart_unsignedLiteral true).after [45] _ _ h
        · simp
          decide
        · intro more
          rfl
      · apply (numberPart_unsignedLiteral false).after [] _ _ h
        · simp
        · intro more
          simp [parseLiteral, hc]
          rfl

/-! ## The reader, one call at a time -/

/-- A value that is neither an object nor an array, from its first unit. -/
def parseAtom (c : CodeUnit) (rest : JsString) : Option (JsValue × JsString) :=
  if c = 34 then (parseString rest).map fun p => (.str p.1, p.2)
  else if c = 110 then expectWord (js "null") (c :: rest) .null
  else if c = 116 then expectWord (js "true") (c :: rest) (.bool true)
  else if c = 102 then expectWord (js "false") (c :: rest) (.bool false)
  else parseNumber (c :: rest)

variable {fuel : ℕ} {s rest : JsString}

/-- An object or an array, empty or not, or an atom. -/
theorem parseValue_eq_some {v : JsValue} :
    parseValue (fuel + 1) s = some (v, rest) ↔
      (∃ r, skipSpace s = 123 :: r ∧ skipSpace r = 125 :: rest ∧ v = .obj []) ∨
      (∃ r d r' props, skipSpace s = 123 :: r ∧ skipSpace r = d :: r' ∧ d ≠ 125 ∧
        parseMembers fuel (d :: r') = some (props, rest) ∧ v = .obj (buildProps props)) ∨
      (∃ r, skipSpace s = 91 :: r ∧ skipSpace r = 93 :: rest ∧ v = .arr []) ∨
      (∃ r d r' items, skipSpace s = 91 :: r ∧ skipSpace r = d :: r' ∧ d ≠ 93 ∧
        parseElements fuel (d :: r') = some (items, rest) ∧ v = .arr items) ∨
      ∃ c r, skipSpace s = c :: r ∧ c ≠ 123 ∧ c ≠ 91 ∧ parseAtom c r = some (v, rest) := by
  rw [parseValue]
  cases hs : skipSpace s with
  | nil => simp
  | cons c r =>
      by_cases hobj : c = 123
      · subst hobj
        cases hr : skipSpace r with
        | nil => simp [hr]
        | cons d r' =>
            by_cases hclose : d = 125
            · simp [hr, hclose, eq_comm, and_comm]
            · simp [hr, hclose, eq_comm]
      by_cases harr : c = 91
      · subst harr
        cases hr : skipSpace r with
        | nil => simp [hr]
        | cons d r' =>
            by_cases hclose : d = 93
            · simp [hr, hclose, eq_comm, and_comm]
            · simp [hr, hclose, eq_comm]
      · have hatom : (∃ c' r', c :: r = c' :: r' ∧ c' ≠ 123 ∧ c' ≠ 91 ∧
            parseAtom c' r' = some (v, rest)) ↔ parseAtom c r = some (v, rest) := by
          constructor
          · rintro ⟨c', r', hcons, -, -, h⟩
            obtain ⟨rfl, rfl⟩ := List.cons.inj hcons
            exact h
          · exact fun h => ⟨c, r, rfl, hobj, harr, h⟩
        rw [hatom]
        simp [hobj, harr, parseAtom]

theorem parseElements_eq_some {items : List JsValue} :
    parseElements (fuel + 1) s = some (items, rest) ↔
      ∃ v after, parseValue fuel s = some (v, after) ∧
        ((∃ r more, skipSpace after = 44 :: r ∧ parseElements fuel r = some (more, rest) ∧
            items = v :: more) ∨
          (skipSpace after = 93 :: rest ∧ items = [v])) := by
  rw [parseElements]
  cases hv : parseValue fuel s with
  | none => simp
  | some p =>
      obtain ⟨v, after⟩ := p
      cases hafter : skipSpace after with
      | nil => simp [hafter]
      | cons c r =>
          by_cases hcomma : c = 44
          · simp [hafter, hcomma, eq_comm]
          · by_cases hclose : c = 93
            · simp [hafter, hclose, eq_comm, and_comm]
            · simp [hafter, hcomma, hclose]

theorem parseMembers_eq_some {props : List (JsString × JsValue)} :
    parseMembers (fuel + 1) s = some (props, rest) ↔
      ∃ opened key closed colon v after, skipSpace s = 34 :: opened ∧
        parseString opened = some (key, closed) ∧ skipSpace closed = 58 :: colon ∧
        parseValue fuel colon = some (v, after) ∧
        ((∃ r more, skipSpace after = 44 :: r ∧ parseMembers fuel r = some (more, rest) ∧
            props = (key, v) :: more) ∨
          (skipSpace after = 125 :: rest ∧ props = [(key, v)])) := by
  rw [parseMembers]
  cases hs : skipSpace s with
  | nil => simp
  | cons q opened =>
      by_cases hquote : q = 34
      · subst hquote
        cases hkey : parseString opened with
        | none => simp [hkey]
        | some p =>
            obtain ⟨key, closed⟩ := p
            cases hcolon : skipSpace closed with
            | nil => simp [hkey, hcolon]
            | cons c colon =>
                by_cases hc : c = 58
                · subst hc
                  cases hv : parseValue fuel colon with
                  | none => simp [hkey, hcolon, hv]
                  | some p =>
                      obtain ⟨v, after⟩ := p
                      cases hafter : skipSpace after with
                      | nil => simp [hkey, hcolon, hv, hafter]
                      | cons d r =>
                          by_cases hcomma : d = 44
                          · simp [hkey, hcolon, hv, hafter, hcomma, eq_comm]
                          · by_cases hclose : d = 125
                            · simp [hkey, hcolon, hv, hafter, hclose, eq_comm, and_comm]
                            · simp [hkey, hcolon, hv, hafter, hcomma, hclose]
                · simp [hkey, hcolon, hc]
      · simp [hquote]

section Induction

variable {V : ℕ → JsString → JsValue → JsString → Prop}
  {E : ℕ → JsString → List JsValue → JsString → Prop}
  {M : ℕ → JsString → List (JsString × JsValue) → JsString → Prop}

/-- What each call of the reader makes of what its calls gave holds of whatever
the reader gives. -/
theorem parse_ind
    (emptyObject : ∀ fuel s r rest, skipSpace s = 123 :: r → skipSpace r = 125 :: rest →
      V (fuel + 1) s (.obj []) rest)
    (object : ∀ fuel s r d r' props rest, skipSpace s = 123 :: r → skipSpace r = d :: r' →
      d ≠ 125 → M fuel (d :: r') props rest → V (fuel + 1) s (.obj (buildProps props)) rest)
    (emptyArray : ∀ fuel s r rest, skipSpace s = 91 :: r → skipSpace r = 93 :: rest →
      V (fuel + 1) s (.arr []) rest)
    (array : ∀ fuel s r d r' items rest, skipSpace s = 91 :: r → skipSpace r = d :: r' →
      d ≠ 93 → E fuel (d :: r') items rest → V (fuel + 1) s (.arr items) rest)
    (atom : ∀ fuel s c r v rest, skipSpace s = c :: r → c ≠ 123 → c ≠ 91 →
      parseAtom c r = some (v, rest) → V (fuel + 1) s v rest)
    (lastElement : ∀ fuel s v after rest, V fuel s v after → skipSpace after = 93 :: rest →
      E (fuel + 1) s [v] rest)
    (element : ∀ fuel s v after r more rest, V fuel s v after → skipSpace after = 44 :: r →
      E fuel r more rest → E (fuel + 1) s (v :: more) rest)
    (lastMember : ∀ fuel s opened key closed colon v after rest, skipSpace s = 34 :: opened →
      parseString opened = some (key, closed) → skipSpace closed = 58 :: colon →
      V fuel colon v after → skipSpace after = 125 :: rest → M (fuel + 1) s [(key, v)] rest)
    (member : ∀ fuel s opened key closed colon v after r more rest, skipSpace s = 34 :: opened →
      parseString opened = some (key, closed) → skipSpace closed = 58 :: colon →
      V fuel colon v after → skipSpace after = 44 :: r → M fuel r more rest →
      M (fuel + 1) s ((key, v) :: more) rest)
    (fuel : ℕ) :
    (∀ s v rest, parseValue fuel s = some (v, rest) → V fuel s v rest) ∧
    (∀ s items rest, parseElements fuel s = some (items, rest) → E fuel s items rest) ∧
    ∀ s props rest, parseMembers fuel s = some (props, rest) → M fuel s props rest := by
  induction fuel with
  | zero =>
      refine ⟨?_, ?_, ?_⟩
      · intro s v rest h
        simp [parseValue] at h
      · intro s items rest h
        simp [parseElements] at h
      · intro s props rest h
        simp [parseMembers] at h
  | succ fuel ih =>
      obtain ⟨hvalue, helements, hmembers⟩ := ih
      refine ⟨?_, ?_, ?_⟩
      · intro s v rest h
        rcases parseValue_eq_some.mp h with ⟨r, hs, hr, rfl⟩ |
          ⟨r, d, r', props, hs, hr, hd, hprops, rfl⟩ | ⟨r, hs, hr, rfl⟩ |
          ⟨r, d, r', items, hs, hr, hd, hitems, rfl⟩ | ⟨c, r, hs, hobject, harray, hatom⟩
        · exact emptyObject fuel s r rest hs hr
        · exact object fuel s r d r' props rest hs hr hd (hmembers _ _ _ hprops)
        · exact emptyArray fuel s r rest hs hr
        · exact array fuel s r d r' items rest hs hr hd (helements _ _ _ hitems)
        · exact atom fuel s c r v rest hs hobject harray hatom
      · intro s items rest h
        obtain ⟨v, after, hv, ⟨r, more, hafter, hmore, rfl⟩ | ⟨hafter, rfl⟩⟩ :=
          parseElements_eq_some.mp h
        · exact element fuel s v after r more rest (hvalue _ _ _ hv) hafter (helements _ _ _ hmore)
        · exact lastElement fuel s v after rest (hvalue _ _ _ hv) hafter
      · intro s props rest h
        obtain ⟨opened, key, closed, colon, v, after, hs, hkey, hclosed, hv,
          ⟨r, more, hafter, hmore, rfl⟩ | ⟨hafter, rfl⟩⟩ := parseMembers_eq_some.mp h
        · exact member fuel s opened key closed colon v after r more rest hs hkey hclosed
            (hvalue _ _ _ hv) hafter (hmembers _ _ _ hmore)
        · exact lastMember fuel s opened key closed colon v after rest hs hkey hclosed
            (hvalue _ _ _ hv) hafter

end Induction

/-! ## More fuel -/

theorem parse_succ (fuel : ℕ) :
    (∀ s v rest, parseValue fuel s = some (v, rest) → parseValue (fuel + 1) s = some (v, rest)) ∧
    (∀ s items rest, parseElements fuel s = some (items, rest) →
      parseElements (fuel + 1) s = some (items, rest)) ∧
    ∀ s props rest, parseMembers fuel s = some (props, rest) →
      parseMembers (fuel + 1) s = some (props, rest) := by
  apply parse_ind (V := fun fuel s v rest => parseValue (fuel + 1) s = some (v, rest))
    (E := fun fuel s items rest => parseElements (fuel + 1) s = some (items, rest))
    (M := fun fuel s props rest => parseMembers (fuel + 1) s = some (props, rest))
  · intro fuel s r rest hs hr
    exact parseValue_eq_some.mpr (.inl ⟨r, hs, hr, rfl⟩)
  · intro fuel s r d r' props rest hs hr hd hprops
    exact parseValue_eq_some.mpr (.inr (.inl ⟨r, d, r', props, hs, hr, hd, hprops, rfl⟩))
  · intro fuel s r rest hs hr
    exact parseValue_eq_some.mpr (.inr (.inr (.inl ⟨r, hs, hr, rfl⟩)))
  · intro fuel s r d r' items rest hs hr hd hitems
    exact parseValue_eq_some.mpr
      (.inr (.inr (.inr (.inl ⟨r, d, r', items, hs, hr, hd, hitems, rfl⟩))))
  · intro fuel s c r v rest hs hobject harray hatom
    exact parseValue_eq_some.mpr (.inr (.inr (.inr (.inr ⟨c, r, hs, hobject, harray, hatom⟩))))
  · intro fuel s v after rest hv hafter
    exact parseElements_eq_some.mpr ⟨v, after, hv, .inr ⟨hafter, rfl⟩⟩
  · intro fuel s v after r more rest hv hafter hmore
    exact parseElements_eq_some.mpr ⟨v, after, hv, .inl ⟨r, more, hafter, hmore, rfl⟩⟩
  · intro fuel s opened key closed colon v after rest hs hkey hclosed hv hafter
    exact parseMembers_eq_some.mpr
      ⟨opened, key, closed, colon, v, after, hs, hkey, hclosed, hv, .inr ⟨hafter, rfl⟩⟩
  · intro fuel s opened key closed colon v after r more rest hs hkey hclosed hv hafter hmore
    exact parseMembers_eq_some.mpr ⟨opened, key, closed, colon, v, after, hs, hkey, hclosed, hv,
      .inl ⟨r, more, hafter, hmore, rfl⟩⟩

theorem parseValue_mono {v : JsValue} {more : ℕ} (hle : fuel ≤ more)
    (h : parseValue fuel s = some (v, rest)) : parseValue more s = some (v, rest) := by
  induction more, hle using Nat.le_induction with
  | base => exact h
  | succ more _ ih => exact (parse_succ more).1 _ _ _ ih

/-- Whatever the fuel, a text is read in one way. -/
theorem parseValue_unique {v v' : JsValue} {fuel' : ℕ} {rest' : JsString}
    (h : parseValue fuel s = some (v, rest)) (h' : parseValue fuel' s = some (v', rest')) :
    v = v' ∧ rest = rest' := by
  have hmax := parseValue_mono (le_max_left fuel fuel') h
  rw [parseValue_mono (le_max_right fuel fuel') h'] at hmax
  exact Prod.mk.inj (Option.some.inj hmax.symm)

/-! ## What follows -/

theorem skipSpace_append {c : CodeUnit} {r : JsString} (h : skipSpace s = c :: r)
    (more : JsString) : skipSpace (s ++ more) = c :: (r ++ more) := by
  unfold skipSpace at h ⊢
  rw [List.dropWhile_append, h]
  rfl

/-- A number may go on where the text goes on, everything else is closed. -/
def Closed (v : JsValue) (rest : JsString) : Prop :=
  (∃ x, v = .num x) → rest ≠ []

theorem parseAtom_append {c : CodeUnit} {r : JsString} {v : JsValue}
    (h : parseAtom c r = some (v, rest)) (hclosed : Closed v rest) (more : JsString) :
    parseAtom c (r ++ more) = some (v, rest ++ more) := by
  have hword : ∀ (word : JsString) (w : JsValue),
      expectWord word (c :: r) w = some (v, rest) →
        expectWord word (c :: (r ++ more)) w = some (v, rest ++ more) := by
    intro word w hw
    unfold expectWord at hw ⊢
    split_ifs at hw with hprefix
    obtain ⟨hv, hdrop⟩ := Prod.mk.inj (Option.some.inj hw)
    obtain ⟨tail, htail⟩ := List.isPrefixOf_iff_prefix.mp hprefix
    have hmore : word ++ (tail ++ more) = c :: (r ++ more) := by
      rw [← List.append_assoc, htail, List.cons_append]
    rw [if_pos (List.isPrefixOf_iff_prefix.mpr ⟨tail ++ more, hmore⟩), ← hmore, List.drop_left,
      ← hdrop, ← htail, List.drop_left, hv]
  unfold parseAtom at h ⊢
  split_ifs at h ⊢
  · obtain ⟨⟨key, after⟩, hkey, hv⟩ := Option.map_eq_some_iff.mp h
    obtain ⟨rfl, rfl⟩ := Prod.mk.inj hv
    rw [parseString_append hkey]
    rfl
  · exact hword _ _ h
  · exact hword _ _ h
  · exact hword _ _ h
  · unfold parseNumber at h ⊢
    obtain ⟨⟨lit, after⟩, hlit, hv⟩ := Option.map_eq_some_iff.mp h
    obtain ⟨rfl, rfl⟩ := Prod.mk.inj hv
    have happend := (numberPart_parseLiteral _ _ _ hlit).2 (hclosed ⟨_, rfl⟩) more
    rw [List.cons_append] at happend
    rw [happend]
    rfl

theorem ne_nil_of_skipSpace {c : CodeUnit} {r : JsString} (h : skipSpace s = c :: r) : s ≠ [] := by
  rintro rfl
  cases h

/-- What is read does not depend on what follows it. -/
theorem parse_append (fuel : ℕ) :
    (∀ s v rest, parseValue fuel s = some (v, rest) → ∀ more, Closed v rest →
      parseValue fuel (s ++ more) = some (v, rest ++ more)) ∧
    (∀ s items rest, parseElements fuel s = some (items, rest) → ∀ more,
      parseElements fuel (s ++ more) = some (items, rest ++ more)) ∧
    ∀ s props rest, parseMembers fuel s = some (props, rest) → ∀ more,
      parseMembers fuel (s ++ more) = some (props, rest ++ more) := by
  apply parse_ind
    (V := fun fuel s v rest => ∀ more, Closed v rest →
      parseValue fuel (s ++ more) = some (v, rest ++ more))
    (E := fun fuel s items rest => ∀ more,
      parseElements fuel (s ++ more) = some (items, rest ++ more))
    (M := fun fuel s props rest => ∀ more,
      parseMembers fuel (s ++ more) = some (props, rest ++ more))
  · intro fuel s r rest hs hr more _
    exact parseValue_eq_some.mpr
      (.inl ⟨r ++ more, skipSpace_append hs more, skipSpace_append hr more, rfl⟩)
  · intro fuel s r d r' props rest hs hr hd hprops more _
    exact parseValue_eq_some.mpr (.inr (.inl ⟨r ++ more, d, r' ++ more, props,
      skipSpace_append hs more, skipSpace_append hr more, hd, hprops more, rfl⟩))
  · intro fuel s r rest hs hr more _
    exact parseValue_eq_some.mpr (.inr (.inr (.inl
      ⟨r ++ more, skipSpace_append hs more, skipSpace_append hr more, rfl⟩)))
  · intro fuel s r d r' items rest hs hr hd hitems more _
    exact parseValue_eq_some.mpr (.inr (.inr (.inr (.inl ⟨r ++ more, d, r' ++ more, items,
      skipSpace_append hs more, skipSpace_append hr more, hd, hitems more, rfl⟩))))
  · intro fuel s c r v rest hs hobject harray hatom more hclosed
    exact parseValue_eq_some.mpr (.inr (.inr (.inr (.inr ⟨c, r ++ more, skipSpace_append hs more,
      hobject, harray, parseAtom_append hatom hclosed more⟩))))
  · intro fuel s v after rest hv hafter more
    have hread := hv more fun _ => ne_nil_of_skipSpace hafter
    exact parseElements_eq_some.mpr
      ⟨v, after ++ more, hread, .inr ⟨skipSpace_append hafter more, rfl⟩⟩
  · intro fuel s v after r items rest hv hafter hitems more
    have hread := hv more fun _ => ne_nil_of_skipSpace hafter
    exact parseElements_eq_some.mpr ⟨v, after ++ more, hread,
      .inl ⟨r ++ more, items, skipSpace_append hafter more, hitems more, rfl⟩⟩
  · intro fuel s opened key closed colon v after rest hs hkey hclosed hv hafter more
    have hread := hv more fun _ => ne_nil_of_skipSpace hafter
    exact parseMembers_eq_some.mpr ⟨opened ++ more, key, closed ++ more, colon ++ more, v,
      after ++ more, skipSpace_append hs more, parseString_append hkey more,
      skipSpace_append hclosed more, hread, .inr ⟨skipSpace_append hafter more, rfl⟩⟩
  · intro fuel s opened key closed colon v after r props rest hs hkey hclosed hv hafter hprops more
    have hread := hv more fun _ => ne_nil_of_skipSpace hafter
    exact parseMembers_eq_some.mpr ⟨opened ++ more, key, closed ++ more, colon ++ more, v,
      after ++ more, skipSpace_append hs more, parseString_append hkey more,
      skipSpace_append hclosed more, hread,
      .inl ⟨r ++ more, props, skipSpace_append hafter more, hprops more, rfl⟩⟩

end OpticsAgent.Ecma
