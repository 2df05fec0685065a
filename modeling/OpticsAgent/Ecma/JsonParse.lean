import Mathlib
import OpticsAgent.Ecma.Value

/-!
`JSON.parse` as a recursive descent over code units. The fuel bounds the
number of nested calls; the length of the text is always enough, because every
call reads at least one unit. The main result is that parsing a printed
document gives the document back, with `-0` read as `0`.
-/

namespace OpticsAgent.Ecma

def isJsonSpace (c : CodeUnit) : Bool := c == 9 || c == 10 || c == 13 || c == 32

def skipSpace (s : JsString) : JsString :=
  s.dropWhile isJsonSpace

/-- The unit a one-letter escape stands for. -/
def simpleEscape? (e : CodeUnit) : Option CodeUnit :=
  if e = 34 then some 34
  else if e = 92 then some 92
  else if e = 47 then some 47
  else if e = 98 then some 8
  else if e = 102 then some 12
  else if e = 110 then some 10
  else if e = 114 then some 13
  else if e = 116 then some 9
  else none

/-- The rest of a string literal after its opening quote. -/
def parseString : JsString → Option (JsString × JsString)
  | [] => none
  | c :: rest =>
      if c = 34 then some ([], rest)
      else if c = 92 then
        match rest with
        | [] => none
        | e :: rest' =>
            if e = 117 then
              match rest' with
              | w :: x :: y :: z :: rest'' =>
                  (unhex4 w x y z).bind fun u =>
                    (parseString rest'').map fun p => (u :: p.1, p.2)
              | _ => none
            else
              (simpleEscape? e).bind fun u =>
                (parseString rest').map fun p => (u :: p.1, p.2)
      else if c.val < 32 then none
      else (parseString rest).map fun p => (c :: p.1, p.2)

/-- Read an exact word. -/
def expectWord (word s : JsString) (v : JsValue) : Option (JsValue × JsString) :=
  if word.isPrefixOf s then some (v, s.drop word.length) else none

def parseNumber (s : JsString) : Option (JsValue × JsString) :=
  (parseLiteral s).map fun p => (.num p.1.number, p.2)

mutual

def parseValue : ℕ → JsString → Option (JsValue × JsString)
  | 0, _ => none
  | fuel + 1, s =>
      match skipSpace s with
      | [] => none
      | c :: rest =>
          if c = 123 then
            match skipSpace rest with
            | [] => none
            | d :: rest' =>
                if d = 125 then some (.obj [], rest')
                else (parseMembers fuel (d :: rest')).map fun p => (.obj (buildProps p.1), p.2)
          else if c = 91 then
            match skipSpace rest with
            | [] => none
            | d :: rest' =>
                if d = 93 then some (.arr [], rest')
                else (parseElements fuel (d :: rest')).map fun p => (.arr p.1, p.2)
          else if c = 34 then (parseString rest).map fun p => (.str p.1, p.2)
          else if c = 110 then expectWord (js "null") (c :: rest) .null
          else if c = 116 then expectWord (js "true") (c :: rest) (.bool true)
          else if c = 102 then expectWord (js "false") (c :: rest) (.bool false)
          else parseNumber (c :: rest)

/-- The elements of a non-empty array, up to the closing bracket. -/
def parseElements : ℕ → JsString → Option (List JsValue × JsString)
  | 0, _ => none
  | fuel + 1, s =>
      match parseValue fuel s with
      | none => none
      | some (v, afterValue) =>
          match skipSpace afterValue with
          | [] => none
          | c :: rest =>
              if c = 44 then (parseElements fuel rest).map fun p => (v :: p.1, p.2)
              else if c = 93 then some ([v], rest)
              else none

/-- The members of a non-empty object, up to the closing brace. -/
def parseMembers : ℕ → JsString → Option (List (JsString × JsValue) × JsString)
  | 0, _ => none
  | fuel + 1, s =>
      match skipSpace s with
      | [] => none
      | q :: afterQuote =>
          if q = 34 then
            match parseString afterQuote with
            | none => none
            | some (key, afterKey) =>
                match skipSpace afterKey with
                | [] => none
                | c :: afterColon =>
                    if c = 58 then
                      match parseValue fuel afterColon with
                      | none => none
                      | some (v, afterValue) =>
                          match skipSpace afterValue with
                          | [] => none
                          | d :: rest =>
                              if d = 44 then
                                (parseMembers fuel rest).map fun p => ((key, v) :: p.1, p.2)
                              else if d = 125 then some ([(key, v)], rest)
                              else none
                    else none
          else none

end

/-- `JSON.parse(text)`; `none` is the SyntaxError. -/
def parseJson (text : JsString) : Option JsValue :=
  match parseValue (text.length + 1) text with
  | none => none
  | some (v, rest) => if skipSpace rest = [] then some v else none

/-! ## Strings -/

theorem parseString_plain {c : CodeUnit} (rest : JsString) (hquote : c ≠ 34) (hback : c ≠ 92)
    (hcontrol : 32 ≤ c.val) :
    parseString (c :: rest) = (parseString rest).map fun p => (c :: p.1, p.2) := by
  rw [parseString.eq_def]
  simp [hquote, hback, not_lt.mpr hcontrol]

theorem parseString_escapeUnit (c : CodeUnit) (rest : JsString) :
    parseString (escapeUnit c ++ rest) = (parseString rest).map fun p => (c :: p.1, p.2) := by
  have hsimple (e u : CodeUnit) (he : e ≠ 117) (hu : simpleEscape? e = some u) :
      parseString (92 :: e :: rest) = (parseString rest).map fun p => (u :: p.1, p.2) := by
    rw [parseString.eq_def]
    simp [he, hu]
  unfold escapeUnit
  split_ifs with h1 h2 h3 h4 h5 h6 h7 h8
  · exact h1 ▸ hsimple 34 34 (by decide) (by decide)
  · exact h2 ▸ hsimple 92 92 (by decide) (by decide)
  · exact h3 ▸ hsimple 98 8 (by decide) (by decide)
  · exact h4 ▸ hsimple 102 12 (by decide) (by decide)
  · exact h5 ▸ hsimple 110 10 (by decide) (by decide)
  · exact h6 ▸ hsimple 114 13 (by decide) (by decide)
  · exact h7 ▸ hsimple 116 9 (by decide) (by decide)
  · obtain ⟨w, x, y, z, hhex, hunhex⟩ := unhex4_hex4 c
    rw [hhex, parseString.eq_def]
    simp [hunhex]
  · simp only [Bool.or_eq_true, decide_eq_true_eq, not_or] at h8
    exact parseString_plain rest h1 h2 (by omega)

theorem surrogate_plain {c : CodeUnit} (h : isHighSurrogate c = true ∨ isLowSurrogate c = true) :
    c ≠ 34 ∧ c ≠ 92 ∧ 32 ≤ c.val := by
  have hval : 0xD800 ≤ c.val := by
    simp only [isHighSurrogate, isLowSurrogate, Bool.and_eq_true, decide_eq_true_eq] at h
    omega
  refine ⟨?_, ?_, by omega⟩
  · rintro rfl
    exact absurd hval (by decide)
  · rintro rfl
    exact absurd hval (by decide)

/-- Reading a quoted string gives it back. Inside a surrogate pair the low
half is copied, which the reader accepts as an ordinary unit. -/
theorem parseString_quoteUnits (inPair : Bool) (s rest : JsString)
    (hpair : inPair = true → ∀ c, s.head? = some c → isLowSurrogate c = true) :
    parseString (quoteUnits inPair s ++ 34 :: rest) = some (s, rest) := by
  induction s generalizing inPair with
  | nil =>
      rw [quoteUnits, List.nil_append, parseString.eq_def]
      simp
  | cons c tail ih =>
      have hfree := ih false (by simp)
      unfold quoteUnits
      split_ifs with hin hhigh
      · obtain ⟨hq, hb, hc⟩ := surrogate_plain (Or.inr (hpair hin c rfl))
        rw [List.cons_append, parseString_plain _ hq hb hc, hfree]
        rfl
      · simp only [Bool.and_eq_true] at hhigh
        obtain ⟨hq, hb, hc⟩ := surrogate_plain (Or.inl hhigh.1)
        have hnext := ih true (by
          intro _ d hd
          have hlow := hhigh.2
          rw [hd] at hlow
          exact hlow)
        rw [List.cons_append, parseString_plain _ hq hb hc, hnext]
        rfl
      · rw [List.append_assoc, parseString_escapeUnit, hfree]
        rfl

theorem parseString_quote (s rest : JsString) :
    parseString (quoteUnits false s ++ 34 :: rest) = some (s, rest) :=
  parseString_quoteUnits false s rest (by simp)

/-! ## Documents -/

theorem skipSpace_cons {c : CodeUnit} (rest : JsString) (h : isJsonSpace c = false) :
    skipSpace (c :: rest) = c :: rest := by
  simp [skipSpace, h]

/-- What stands after a value inside a printed document. -/
def Delimited (rest : JsString) : Prop :=
  ∀ c, rest.head? = some c → c = 44 ∨ c = 93 ∨ c = 125

theorem Delimited.endsNumber {rest : JsString} (h : Delimited rest) : EndsNumber rest := by
  intro c hc
  rcases h c hc with rfl | rfl | rfl <;> decide

theorem delimited_printItems (items : List Json) (rest : JsString) :
    Delimited (Json.printItems items ++ rest) := by
  intro c hc
  cases items with
  | nil =>
      simp only [Json.printItems, List.cons_append, List.head?_cons, Option.some.injEq] at hc
      simp [← hc]
  | cons x tail =>
      simp only [Json.printItems, List.cons_append, List.head?_cons, Option.some.injEq] at hc
      simp [← hc]

theorem delimited_printProps (props : List (JsString × Json)) (rest : JsString) :
    Delimited (Json.printProps props ++ rest) := by
  intro c hc
  cases props with
  | nil =>
      simp only [Json.printProps, List.cons_append, List.head?_cons, Option.some.injEq] at hc
      simp [← hc]
  | cons p tail =>
      simp only [Json.printProps, List.cons_append, List.head?_cons, Option.some.injEq] at hc
      simp [← hc]

theorem digit_not_space {c : CodeUnit} (h : 48 ≤ c.val ∧ c.val < 58) :
    isJsonSpace c = false := by
  simp only [isJsonSpace, Bool.or_eq_false_iff, beq_eq_false_iff_ne]
  refine ⟨⟨⟨?_, ?_⟩, ?_⟩, ?_⟩ <;> (rintro rfl; revert h; decide)

/-- A printed number starts with a digit or a minus sign. -/
theorem numberLiteral_head (x : Double) :
    ∃ c rest, (numberLiteral x).text = c :: rest ∧ (c = 45 ∨ 48 ≤ c.val ∧ c.val < 58) := by
  obtain ⟨d, ds, hcons, -⟩ := numberLiteral_leadingOk x
  unfold Literal.text Literal.unsignedText
  rw [hcons]
  cases (numberLiteral x).neg with
  | true => exact ⟨45, _, rfl, Or.inl rfl⟩
  | false =>
      refine ⟨digitUnit d, _, rfl, Or.inr ?_⟩
      simp only [digitUnit]
      omega

theorem parseValue_num (x : Double) (fuel : ℕ) (rest : JsString) (h : Delimited rest) :
    parseValue (fuel + 1) ((numberLiteral x).text ++ rest) =
      some (.num (.finite x.clearNegZero), rest) := by
  obtain ⟨c, tail, htext, hc⟩ := numberLiteral_head x
  have hne : c ≠ 123 ∧ c ≠ 91 ∧ c ≠ 34 ∧ c ≠ 110 ∧ c ≠ 116 ∧ c ≠ 102 ∧
      isJsonSpace c = false := by
    rcases hc with rfl | hdigit
    · decide
    · refine ⟨?_, ?_, ?_, ?_, ?_, ?_, digit_not_space hdigit⟩
      all_goals
        rintro rfl
        revert hdigit
        decide
  obtain ⟨h1, h2, h3, h4, h5, h6, hspace⟩ := hne
  have hnumber : parseNumber ((numberLiteral x).text ++ rest) =
      some (.num (.finite x.clearNegZero), rest) := by
    rw [parseNumber, parseLiteral_numberLiteral x rest h.endsNumber]
    simp [numberLiteral_number]
  rw [htext, List.cons_append] at hnumber ⊢
  rw [parseValue, skipSpace_cons _ hspace]
  simp only [h1, h2, h3, h4, h5, h6, if_false]
  exact hnumber

theorem parseValue_word (word : JsString) (v : JsValue) (fuel : ℕ) (rest : JsString)
    (h : (word, v) ∈ [(js "null", JsValue.null), (js "true", .bool true),
      (js "false", .bool false)]) :
    parseValue (fuel + 1) (word ++ rest) = some (v, rest) := by
  simp only [List.mem_cons, Prod.mk.injEq, List.not_mem_nil, or_false] at h
  have hnull : js "null" = [110, 117, 108, 108] := by decide
  have htrue : js "true" = [116, 114, 117, 101] := by decide
  have hfalse : js "false" = [102, 97, 108, 115, 101] := by decide
  rcases h with ⟨rfl, rfl⟩ | ⟨rfl, rfl⟩ | ⟨rfl, rfl⟩
  · rw [hnull, List.cons_append, parseValue, skipSpace_cons _ (by decide)]
    simp [expectWord, hnull]
  · rw [htrue, List.cons_append, parseValue, skipSpace_cons _ (by decide)]
    simp [expectWord, htrue]
  · rw [hfalse, List.cons_append, parseValue, skipSpace_cons _ (by decide)]
    simp [expectWord, hfalse]

theorem print_head (j : Json) :
    ∃ c rest, j.print = c :: rest ∧ isJsonSpace c = false ∧ c ≠ 93 := by
  cases j with
  | null => exact ⟨110, [117, 108, 108], by decide, by decide, by decide⟩
  | bool b =>
      cases b with
      | false => exact ⟨102, [97, 108, 115, 101], by decide, by decide, by decide⟩
      | true => exact ⟨116, [114, 117, 101], by decide, by decide, by decide⟩
  | num x =>
      obtain ⟨c, rest, htext, hc⟩ := numberLiteral_head x
      refine ⟨c, rest, htext, ?_, ?_⟩
      · rcases hc with rfl | hdigit
        · decide
        · exact digit_not_space hdigit
      · rintro rfl
        revert hc
        decide
  | str s => exact ⟨34, _, rfl, by decide, by decide⟩
  | arr items =>
      cases items with
      | nil => exact ⟨91, _, rfl, by decide, by decide⟩
      | cons x rest => exact ⟨91, _, rfl, by decide, by decide⟩
  | obj props =>
      cases props with
      | nil => exact ⟨123, _, rfl, by decide, by decide⟩
      | cons p rest => exact ⟨123, _, rfl, by decide, by decide⟩

/-- What the reader makes of a document. -/
def Json.parsed (j : Json) : JsValue := j.clearNegZero.toValue

theorem Json.parsed_arr (items : List Json) :
    (Json.arr items).parsed = .arr (items.map Json.parsed) := by
  simp [Json.parsed, Json.clearNegZero, Json.toValue, Json.clearItems_eq_map,
    Json.itemsToValue_eq_map, Function.comp_def]

theorem Json.parsed_obj (props : List (JsString × Json)) :
    (Json.obj props).parsed = .obj (props.map fun p => (p.1, p.2.parsed)) := by
  simp [Json.parsed, Json.clearNegZero, Json.toValue, Json.clearProps_eq_map,
    Json.propsToValue_eq_map, Function.comp_def]

/-- The reader recovers `j` from its text, whatever delimiter follows. -/
def ReadsBack (j : Json) : Prop :=
  ∀ fuel rest, Delimited rest → j.print.length ≤ fuel →
    parseValue fuel (j.print ++ rest) = some (j.parsed, rest)

theorem parseElements_print {x : Json} {items : List Json}
    (hread : ∀ y ∈ x :: items, ReadsBack y) (fuel : ℕ) (rest : JsString)
    (hfuel : (x.print ++ Json.printItems items).length ≤ fuel) :
    parseElements fuel (x.print ++ Json.printItems items ++ rest) =
      some ((x :: items).map Json.parsed, rest) := by
  induction items generalizing x fuel with
  | nil =>
      obtain ⟨n, rfl⟩ : ∃ n, fuel = n + 1 := ⟨fuel - 1, by
        simp [Json.printItems] at hfuel; omega⟩
      have hx := hread x (by simp) n (93 :: rest) (by intro c hc; simp_all)
        (by simp [Json.printItems] at hfuel; omega)
      rw [parseElements, Json.printItems, List.append_assoc, List.singleton_append, hx]
      simp only [skipSpace_cons rest (show isJsonSpace 93 = false by decide)]
      simp
  | cons y tail ih =>
      obtain ⟨n, rfl⟩ : ∃ n, fuel = n + 1 := ⟨fuel - 1, by
        simp [Json.printItems] at hfuel; omega⟩
      have hdelimited := delimited_printItems (y :: tail) rest
      have hx := hread x (by simp) n _ hdelimited
        (by simp [Json.printItems] at hfuel; omega)
      have htail := ih (fun z hz => hread z (List.mem_cons_of_mem x hz)) n
        (by simp [Json.printItems] at hfuel ⊢; omega)
      rw [parseElements, List.append_assoc, hx]
      simp only [Json.printItems, List.cons_append]
      rw [skipSpace_cons _ (by decide)]
      simp only [if_true, htail, Option.map_some, List.map_cons]

theorem parseMembers_print {k : JsString} {v : Json} {props : List (JsString × Json)}
    (hread : ∀ p ∈ (k, v) :: props, ReadsBack p.2) (fuel : ℕ) (rest : JsString)
    (hfuel : (quote k ++ 58 :: v.print ++ Json.printProps props).length ≤ fuel) :
    parseMembers fuel (quote k ++ 58 :: v.print ++ Json.printProps props ++ rest) =
      some (((k, v) :: props).map fun p => (p.1, p.2.parsed), rest) := by
  induction props generalizing k v fuel with
  | nil =>
      obtain ⟨n, rfl⟩ : ∃ n, fuel = n + 1 := ⟨fuel - 1, by
        simp [Json.printProps, quote] at hfuel; omega⟩
      have hv := hread (k, v) (by simp) n (125 :: rest) (by intro c hc; simp_all)
        (by simp [Json.printProps, quote] at hfuel ⊢; omega)
      rw [parseMembers]
      simp only [quote, Json.printProps, List.cons_append, List.append_assoc, List.nil_append]
      rw [skipSpace_cons _ (by decide)]
      simp only [if_true, parseString_quote]
      rw [skipSpace_cons _ (by decide)]
      simp only [if_true, hv]
      rw [skipSpace_cons _ (by decide)]
      simp
  | cons q tail ih =>
      obtain ⟨k', v'⟩ := q
      obtain ⟨n, rfl⟩ : ∃ n, fuel = n + 1 := ⟨fuel - 1, by
        simp [Json.printProps, quote] at hfuel; omega⟩
      have hdelimited := delimited_printProps ((k', v') :: tail) rest
      have hv := hread (k, v) (by simp) n _ hdelimited
        (by simp [Json.printProps, quote] at hfuel ⊢; omega)
      have htail := ih (fun p hp => hread p (List.mem_cons_of_mem _ hp)) n
        (by simp [Json.printProps, quote] at hfuel ⊢; omega)
      simp only [Json.printProps, List.cons_append, List.append_assoc] at hv htail ⊢
      rw [parseMembers]
      simp only [quote, List.cons_append, List.append_assoc, List.nil_append] at hv htail ⊢
      rw [skipSpace_cons _ (by decide)]
      simp only [if_true, parseString_quote]
      rw [skipSpace_cons _ (by decide)]
      simp only [if_true, hv]
      rw [skipSpace_cons _ (by decide)]
      simp only [if_true, htail, Option.map_some, List.map_cons]

/-- Reading a printed document, by induction on the document. -/
theorem readsBack (j : Json) (h : j.WellFormed) : ReadsBack j := by
  induction j using Json.ind with
  | hnull =>
      intro fuel rest hrest hfuel
      obtain ⟨n, rfl⟩ : ∃ n, fuel = n + 1 := ⟨fuel - 1, by
        have : (Json.print .null).length = 4 := by decide
        omega⟩
      exact parseValue_word _ _ n rest List.mem_cons_self
  | hbool b =>
      intro fuel rest hrest hfuel
      obtain ⟨n, rfl⟩ : ∃ n, fuel = n + 1 := ⟨fuel - 1, by
        have : 0 < (Json.print (.bool b)).length := by cases b <;> decide
        omega⟩
      cases b with
      | false =>
          exact parseValue_word _ _ n rest
            (List.mem_cons_of_mem _ (List.mem_cons_of_mem _ List.mem_cons_self))
      | true => exact parseValue_word _ _ n rest (List.mem_cons_of_mem _ List.mem_cons_self)
  | hnum x =>
      intro fuel rest hrest hfuel
      obtain ⟨n, rfl⟩ : ∃ n, fuel = n + 1 := ⟨fuel - 1, by
        obtain ⟨c, tail, htext, -⟩ := numberLiteral_head x
        rw [Json.print, htext, List.length_cons] at hfuel
        omega⟩
      exact parseValue_num x n rest hrest
  | hstr s =>
      intro fuel rest hrest hfuel
      obtain ⟨n, rfl⟩ : ∃ n, fuel = n + 1 := ⟨fuel - 1, by
        simp [Json.print, quote] at hfuel; omega⟩
      simp only [Json.print, quote, List.cons_append, List.append_assoc, List.nil_append]
      rw [parseValue, skipSpace_cons _ (by decide)]
      simp [parseString_quote, Json.parsed, Json.clearNegZero, Json.toValue]
  | harr items ih =>
      intro fuel rest hrest hfuel
      rw [Json.WellFormed, Json.wellFormedItems_iff] at h
      rw [Json.parsed_arr]
      cases items with
      | nil =>
          obtain ⟨n, rfl⟩ : ∃ n, fuel = n + 1 := ⟨fuel - 1, by
            simp [Json.print] at hfuel; omega⟩
          simp only [Json.print, List.cons_append, List.nil_append]
          rw [parseValue, skipSpace_cons _ (by decide)]
          simp [skipSpace_cons _ (show isJsonSpace 93 = false by decide)]
      | cons x tail =>
          obtain ⟨n, rfl⟩ : ∃ n, fuel = n + 1 := ⟨fuel - 1, by
            simp [Json.print] at hfuel; omega⟩
          have hitems := parseElements_print
            (fun y hy => ih y hy (h y hy)) n rest
            (by simp [Json.print] at hfuel ⊢; omega)
          obtain ⟨c, text, hprint, hspace, hclose⟩ := print_head x
          rw [hprint] at hitems
          simp only [Json.print, hprint, List.cons_append, List.append_assoc] at hitems ⊢
          rw [parseValue, skipSpace_cons _ (by decide)]
          simp only [show ¬ ((91 : CodeUnit) = 123) by decide, if_false, if_true]
          rw [skipSpace_cons _ hspace]
          simp only [hclose, if_false, hitems, Option.map_some]
  | hobj props ih =>
      intro fuel rest hrest hfuel
      obtain ⟨horder, hprops⟩ := h
      rw [Json.wellFormedProps_iff] at hprops
      rw [Json.parsed_obj]
      cases props with
      | nil =>
          obtain ⟨n, rfl⟩ : ∃ n, fuel = n + 1 := ⟨fuel - 1, by
            simp [Json.print] at hfuel; omega⟩
          simp only [Json.print, List.cons_append, List.nil_append]
          rw [parseValue, skipSpace_cons _ (by decide)]
          simp [skipSpace_cons _ (show isJsonSpace 125 = false by decide)]
      | cons p tail =>
          obtain ⟨k, v⟩ := p
          obtain ⟨n, rfl⟩ : ∃ n, fuel = n + 1 := ⟨fuel - 1, by
            simp [Json.print] at hfuel; omega⟩
          have hmembers := parseMembers_print
            (fun q hq => ih q hq (hprops q hq)) n rest
            (by simp [Json.print] at hfuel ⊢; omega)
          have hbuild : buildProps (((k, v) :: tail).map fun p => (p.1, p.2.parsed)) =
              ((k, v) :: tail).map fun p => (p.1, p.2.parsed) :=
            buildProps_of_ownOrder (ownOrder_map _ horder)
          simp only [Json.print, quote, List.cons_append, List.append_assoc] at hmembers ⊢
          rw [parseValue, skipSpace_cons _ (by decide)]
          simp only [if_true]
          rw [skipSpace_cons _ (by decide)]
          simp only [show ¬ ((34 : CodeUnit) = 125) by decide, if_false, hmembers,
            Option.map_some, hbuild]

/-- `JSON.parse(JSON.stringify(j))` is `j`, with `-0` read as `0`. -/
theorem parseJson_print (j : Json) (h : j.WellFormed) : parseJson j.print = some j.parsed := by
  have hread := readsBack j h (j.print.length + 1) [] (by simp [Delimited]) (by omega)
  rw [List.append_nil] at hread
  simp [parseJson, hread, skipSpace]

/-- The text determines the document, up to the sign of zero. -/
theorem print_inj {x y : Json} (hx : x.WellFormed) (hy : y.WellFormed)
    (h : x.print = y.print) : x.clearNegZero = y.clearNegZero := by
  have hparsed : x.parsed = y.parsed := by
    have hx' := parseJson_print x hx
    rw [h, parseJson_print y hy] at hx'
    exact (Option.some.inj hx').symm
  have hjson : x.parsed.toJson = y.parsed.toJson := congrArg JsValue.toJson hparsed
  simpa [Json.parsed] using hjson

end OpticsAgent.Ecma
