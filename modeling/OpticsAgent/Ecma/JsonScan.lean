import Mathlib
import OpticsAgent.Ecma.JsonReader

/-!
Which units of a JSON text are inside its strings. A scan keeps track of that
alone, and whatever `JSON.parse` reads is scanned from outside the strings to
outside them; the objects in it are read from the braces outside the strings.
Read from inside a string, what is a key to the reader is outside the strings of
the text, and so is made of punctuation.
-/

namespace OpticsAgent.Ecma

/-! ## The scan -/

/-- A unit a number, a word or the punctuation of a text is made of, or a space. -/
def isStructural (c : CodeUnit) : Bool :=
  isJsonSpace c || isNumberUnit c ||
    [44, 58, 91, 93, 123, 125].contains c || [97, 101, 102, 108, 110, 114, 115, 116, 117].contains c

/-- Outside the strings, inside one, or after a backslash in one. -/
inductive Mode where
  | plain | quoted | escaped
deriving DecidableEq

/-- What a unit leads to; `none` where the unit cannot stand. -/
def Mode.next : Mode → CodeUnit → Option Mode
  | .plain, c => if c = 34 then some .quoted else if isStructural c then some .plain else none
  | .quoted, c =>
      if c = 34 then some .plain
      else if c = 92 then some .escaped
      else if c.val < 32 then none
      else some .quoted
  | .escaped, c => if c = 117 ∨ (simpleEscape? c).isSome then some .quoted else none

def scan : Mode → JsString → Option Mode
  | m, [] => some m
  | m, c :: s => (m.next c).bind fun m' => scan m' s

theorem scan_append (m : Mode) (s t : JsString) :
    scan m (s ++ t) = (scan m s).bind fun m' => scan m' t := by
  induction s generalizing m with
  | nil => rfl
  | cons c s ih =>
      rw [List.cons_append, scan, scan, Option.bind_assoc]
      exact Option.bind_congr fun m' _ => ih m'

theorem scan_append_of_eq {m m' : Mode} {s : JsString} (h : scan m s = some m') (t : JsString) :
    scan m (s ++ t) = scan m' t := by
  rw [scan_append, h]
  rfl

theorem structural_ne {c : CodeUnit} (h : isStructural c = true) : c ≠ 34 ∧ c ≠ 92 := by
  constructor
  · rintro rfl
    exact absurd h (by decide)
  · rintro rfl
    exact absurd h (by decide)

/-- JSON spaces and nothing else. -/
def Spaces (s : JsString) : Prop := ∀ c ∈ s, isJsonSpace c = true

theorem skipSpace_eq_nil {s : JsString} : skipSpace s = [] ↔ Spaces s :=
  List.dropWhile_eq_nil_iff

theorem exists_spaces (s : JsString) : ∃ spaces, s = spaces ++ skipSpace s ∧ Spaces spaces :=
  ⟨s.takeWhile isJsonSpace, List.takeWhile_append_dropWhile.symm,
    fun _ hu => List.mem_takeWhile_imp hu⟩

theorem structural_of_space {c : CodeUnit} (h : isJsonSpace c = true) : isStructural c = true := by
  simp [isStructural, h]

theorem structural_of_number {c : CodeUnit} (h : isNumberUnit c = true) :
    isStructural c = true := by
  simp [isStructural, h]

theorem scan_plain_structural {s : JsString} (h : ∀ c ∈ s, isStructural c = true) :
    scan .plain s = some .plain := by
  induction s with
  | nil => rfl
  | cons c s ih =>
      obtain ⟨hc, hs⟩ := List.forall_mem_cons.mp h
      rw [scan, Mode.next, if_neg (structural_ne hc).1, if_pos hc]
      exact ih hs

theorem scan_quoted_structural {s : JsString} (h : ∀ c ∈ s, isStructural c = true) {m : Mode}
    (hm : scan .quoted s = some m) : m = .quoted := by
  induction s with
  | nil => exact (Option.some.inj hm).symm
  | cons c s ih =>
      obtain ⟨hc, hs⟩ := List.forall_mem_cons.mp h
      obtain ⟨hquote, hback⟩ := structural_ne hc
      rw [scan, Mode.next, if_neg hquote, if_neg hback] at hm
      split_ifs at hm
      · cases hm
      · exact ih hs hm

/-! ## Read from outside the strings -/

/-- What is read of `s` leads from outside the strings to outside them, and `R`
holds of the text from each brace that is opened on the way. -/
def Outside (R : JsString → Prop) (s rest : JsString) : Prop :=
  ∃ used, s = used ++ rest ∧ scan .plain used = some .plain ∧
    ∀ front back, used = front ++ 123 :: back → scan .plain front = some .plain →
      R (123 :: back ++ rest)

variable {R : JsString → Prop} {s mid rest : JsString}

theorem Outside.trans (hfirst : Outside R s mid) (hsecond : Outside R mid rest) :
    Outside R s rest := by
  obtain ⟨used, rfl, hplain, hopens⟩ := hfirst
  obtain ⟨used', rfl, hplain', hopens'⟩ := hsecond
  refine ⟨used ++ used', (List.append_assoc _ _ _).symm, ?_, fun front back hsplit hfront => ?_⟩
  · rw [scan_append_of_eq hplain, hplain']
  · rcases List.append_eq_append_iff.mp hsplit with ⟨more, rfl, hmore⟩ | ⟨more, rfl, hmore⟩
    · rw [scan_append_of_eq hplain] at hfront
      exact hopens' more back hmore hfront
    · cases more with
      | nil => exact hopens' [] back hmore.symm rfl
      | cons c more =>
          obtain ⟨rfl, rfl⟩ := List.cons.inj hmore
          have hopen := hopens front more rfl hfront
          rwa [← List.append_assoc] at hopen

theorem Outside.imp {R' : JsString → Prop} (h : Outside R s rest) (himp : ∀ t, R t → R' t) :
    Outside R' s rest := by
  obtain ⟨used, hused, hplain, hopens⟩ := h
  exact ⟨used, hused, hplain, fun front back hsplit hfront =>
    himp _ (hopens front back hsplit hfront)⟩

theorem outside_structural {used : JsString}
    (h : ∀ c ∈ used, isStructural c = true ∧ c ≠ 123) (rest : JsString) :
    Outside R (used ++ rest) rest := by
  refine ⟨used, rfl, scan_plain_structural fun c hc => (h c hc).1, ?_⟩
  rintro front back rfl -
  exact absurd rfl (h 123 (by simp)).2

theorem outside_space {c : CodeUnit} (h : skipSpace s = c :: rest) : Outside R s (c :: rest) := by
  obtain ⟨spaces, hs, hspaces⟩ := exists_spaces s
  rw [hs, h]
  apply outside_structural
  intro u hu
  refine ⟨structural_of_space (hspaces u hu), ?_⟩
  rintro rfl
  exact absurd (hspaces 123 hu) (by decide)

/-- A unit of punctuation that opens no object, and the spaces before it. -/
theorem outside_mark {c : CodeUnit} (h : skipSpace s = c :: rest)
    (hc : isStructural c = true ∧ c ≠ 123) : Outside R s rest := by
  have hmark : Outside R ([c] ++ rest) rest := outside_structural (by simpa using hc) rest
  exact (outside_space h).trans hmark

theorem outside_open (h : skipSpace s = 123 :: rest) (hR : R (123 :: rest)) :
    Outside R s rest := by
  refine (outside_space h).trans ⟨[123], rfl, by decide, fun front back hsplit _ => ?_⟩
  cases front with
  | nil =>
      obtain ⟨-, rfl⟩ := List.cons.inj hsplit
      exact hR
  | cons c front => simp at hsplit

/-- The units of a string literal between its quotes: none is outside it. -/
def InString (body : JsString) : Prop :=
  scan .quoted body = some .quoted ∧
    ∀ front back, body = front ++ back → scan .quoted front ≠ some .plain

theorem InString.append {body body' : JsString} (h : InString body) (h' : InString body') :
    InString (body ++ body') := by
  refine ⟨?_, fun front back hsplit => ?_⟩
  · rw [scan_append_of_eq h.1, h'.1]
  · rcases List.append_eq_append_iff.mp hsplit with ⟨more, rfl, hmore⟩ | ⟨more, hmore, -⟩
    · rw [scan_append_of_eq h.1]
      exact h'.2 more back hmore
    · exact h.2 front more hmore

theorem inString_unit {c : CodeUnit} (hquote : c ≠ 34) (hback : c ≠ 92) (hcontrol : 32 ≤ c.val) :
    InString [c] := by
  have hnext : scan .quoted [c] = some .quoted := by
    simp [scan, Mode.next, hquote, hback, hcontrol]
  refine ⟨hnext, fun front back hsplit => ?_⟩
  cases front with
  | nil => simp [scan]
  | cons d front =>
      obtain ⟨rfl, hrest⟩ := List.cons.inj hsplit
      obtain ⟨rfl, -⟩ := List.append_eq_nil_iff.mp hrest.symm
      simp [hnext]

theorem inString_escape {e : CodeUnit} (h : e = 117 ∨ (simpleEscape? e).isSome) :
    InString [92, e] := by
  have hback : Mode.next .quoted 92 = some .escaped := by decide
  have hnext : Mode.next .escaped e = some .quoted := if_pos h
  have hscan : scan .quoted [92, e] = some .quoted := by
    simp [scan, hback, hnext]
  refine ⟨hscan, fun front back hsplit => ?_⟩
  cases front with
  | nil => simp [scan]
  | cons d front =>
      obtain ⟨rfl, hrest⟩ := List.cons.inj hsplit
      cases front with
      | nil => simp [scan, hback]
      | cons d front =>
          obtain ⟨rfl, hnil⟩ := List.cons.inj hrest
          obtain ⟨rfl, -⟩ := List.append_eq_nil_iff.mp hnil.symm
          simp [hscan]

theorem inString_hexUnit {c : CodeUnit} {d : Fin 16} (h : hexValue? c = some d) :
    InString [c] := by
  have hrange : 48 ≤ c.val ∧ c.val < 58 ∨ 97 ≤ c.val ∧ c.val < 103 ∨ 65 ≤ c.val ∧ c.val < 71 := by
    by_contra hrange
    simp only [not_or] at hrange
    simp [hexValue?, hrange.1, hrange.2.1, hrange.2.2] at h
  apply inString_unit
  · rintro rfl
    exact absurd hrange (by decide)
  · rintro rfl
    exact absurd hrange (by decide)
  · omega

theorem inString_parseString {key : JsString} (h : parseString s = some (key, rest)) :
    ∃ body, s = body ++ 34 :: rest ∧ InString body := by
  apply parseString_ind (P := fun s _ rest => ∃ body, s = body ++ 34 :: rest ∧ InString body)
    _ _ _ _ h
  · intro rest
    exact ⟨[], rfl, rfl, fun front back hsplit => by simp_all [scan]⟩
  · rintro w x y z u s key rest hu ⟨body, rfl, hbody⟩
    simp only [unhex4, Option.bind_eq_bind, Option.bind_eq_some_iff] at hu
    obtain ⟨_, hw, _, hx, _, hy, _, hz, -⟩ := hu
    have hdigits := (inString_hexUnit hw).append ((inString_hexUnit hx).append
      ((inString_hexUnit hy).append ((inString_hexUnit hz).append hbody)))
    exact ⟨[92, 117] ++ _, rfl, (inString_escape (.inl rfl)).append hdigits⟩
  · rintro e u s key rest hu ⟨body, rfl, hbody⟩
    exact ⟨[92, e] ++ body, rfl, (inString_escape (.inr (by simp [hu]))).append hbody⟩
  · rintro c s key rest hquote hback hcontrol ⟨body, rfl, hbody⟩
    exact ⟨[c] ++ body, rfl, (inString_unit hquote hback hcontrol).append hbody⟩

theorem outside_string {key : JsString} (h : parseString s = some (key, rest)) :
    Outside R (34 :: s) rest := by
  obtain ⟨body, rfl, hscan, hinside⟩ := inString_parseString h
  have hopened : scan .plain (34 :: body) = some .quoted := hscan
  refine ⟨34 :: (body ++ [34]), by simp, ?_, fun front back hsplit hfront => ?_⟩
  · rw [← List.cons_append, scan_append_of_eq hopened]
    rfl
  · cases front with
    | nil => exact absurd (List.cons.inj hsplit).1 (by decide)
    | cons c front =>
        obtain ⟨rfl, hrest⟩ := List.cons.inj hsplit
        have hquoted : scan .quoted front = some .plain := hfront
        rcases List.append_eq_append_iff.mp hrest with ⟨more, rfl, hmore⟩ | ⟨more, rfl, -⟩
        · cases more with
          | nil => exact absurd (List.cons.inj hmore).1 (by decide)
          | cons d more => simp at hmore
        · exact absurd hquoted (hinside front more rfl)

/-- An atom is a string literal, or made of units of its own. -/
theorem parseAtom_cases {c : CodeUnit} {r : JsString} {v : JsValue}
    (h : parseAtom c r = some (v, rest)) :
    (∀ props, v ≠ .obj props) ∧ ((c = 34 ∧ ∃ key, parseString r = some (key, rest)) ∨
      ∃ used, c :: r = used ++ rest ∧ ∀ u ∈ used, isStructural u = true ∧ u ≠ 123) := by
  have hword : ∀ (word : JsString) (w : JsValue),
      (word.all fun u => isStructural u && u != 123) = true →
      expectWord word (c :: r) w = some (v, rest) → v = w ∧
        ∃ used, c :: r = used ++ rest ∧ ∀ u ∈ used, isStructural u = true ∧ u ≠ 123 := by
    intro word w hunits hw
    unfold expectWord at hw
    split_ifs at hw with hprefix
    obtain ⟨rfl, rfl⟩ := Prod.mk.inj (Option.some.inj hw)
    obtain ⟨tail, htail⟩ := List.isPrefixOf_iff_prefix.mp hprefix
    refine ⟨rfl, word, by rw [← htail, List.drop_left], fun u hu => ?_⟩
    simpa using List.all_eq_true.mp hunits u hu
  unfold parseAtom at h
  split_ifs at h with hquote hnull htrue hfalse
  · obtain ⟨⟨key, after⟩, hkey, hv⟩ := Option.map_eq_some_iff.mp h
    obtain ⟨rfl, rfl⟩ := Prod.mk.inj hv
    exact ⟨fun _ => nofun, .inl ⟨hquote, key, hkey⟩⟩
  · obtain ⟨rfl, hused⟩ := hword _ _ (by decide) h
    exact ⟨fun _ => nofun, .inr hused⟩
  · obtain ⟨rfl, hused⟩ := hword _ _ (by decide) h
    exact ⟨fun _ => nofun, .inr hused⟩
  · obtain ⟨rfl, hused⟩ := hword _ _ (by decide) h
    exact ⟨fun _ => nofun, .inr hused⟩
  · obtain ⟨⟨lit, after⟩, hlit, hv⟩ := Option.map_eq_some_iff.mp h
    obtain ⟨rfl, rfl⟩ := Prod.mk.inj hv
    obtain ⟨used, hused, hunits⟩ := (numberPart_parseLiteral _ _ _ hlit).1
    refine ⟨fun _ => nofun, .inr ⟨used, hused, fun u hu => ⟨?_, ?_⟩⟩⟩
    · exact structural_of_number (hunits u hu)
    · rintro rfl
      exact absurd (hunits 123 hu) (by decide)

theorem outside_atom {c : CodeUnit} {r : JsString} {v : JsValue} (hs : skipSpace s = c :: r)
    (h : parseAtom c r = some (v, rest)) : Outside R s rest := by
  apply (outside_space hs).trans
  obtain ⟨-, ⟨rfl, key, hkey⟩ | ⟨used, hused, hunits⟩⟩ := parseAtom_cases h
  · exact outside_string hkey
  · rw [hused]
    exact outside_structural hunits rest

/-- What is left of a text at a place outside its strings. -/
def LeftAt (whole s : JsString) : Prop :=
  ∃ front, whole = front ++ s ∧ scan .plain front = some .plain

variable {whole : JsString}

theorem LeftAt.outside (h : LeftAt whole s) (hread : Outside R s rest) : LeftAt whole rest := by
  obtain ⟨front, rfl, hfront⟩ := h
  obtain ⟨used, rfl, hplain, -⟩ := hread
  refine ⟨front ++ used, (List.append_assoc _ _ _).symm, ?_⟩
  rw [scan_append_of_eq hfront, hplain]

theorem LeftAt.space {c : CodeUnit} (h : LeftAt whole s) (hs : skipSpace s = c :: rest) :
    LeftAt whole (c :: rest) :=
  h.outside (outside_space (R := fun _ => True) hs)

theorem LeftAt.mark {c : CodeUnit} (h : LeftAt whole s) (hs : skipSpace s = c :: rest)
    (hc : isStructural c = true) : LeftAt whole rest := by
  obtain ⟨front, hwhole, hfront⟩ := h.space hs
  refine ⟨front ++ [c], by simp [hwhole], ?_⟩
  rw [scan_append_of_eq hfront]
  exact scan_plain_structural (by simpa using hc)

/-- A property of values that an array hands down to its elements, and an object
of the text to the members that were written for it. -/
structure HandedDown (C : JsValue → Prop) (whole : JsString) : Prop where
  items : ∀ items, C (.arr items) → ∀ x ∈ items, C x
  members : ∀ fuel s props rest, fuel ≤ whole.length → LeftAt whole s →
    parseMembers fuel s = some (props, rest) → C (.obj (buildProps props)) →
      ∀ p ∈ props, C p.2

/-- A value with the property can be read here. -/
def ValueAt (C : JsValue → Prop) (s : JsString) : Prop :=
  ∃ fuel v rest, parseValue fuel s = some (v, rest) ∧ C v

theorem parseValue_skipSpace (fuel : ℕ) (s : JsString) :
    parseValue fuel (skipSpace s) = parseValue fuel s := by
  have hspace : skipSpace (skipSpace s) = skipSpace s := List.dropWhile_idempotent _ s
  cases fuel with
  | zero => rfl
  | succ fuel => rw [parseValue, parseValue, hspace]

/-- Whatever is read with the property is read from outside the strings to
outside them, and so are the objects in it. -/
theorem parse_outside {C : JsValue → Prop} (hC : HandedDown C whole) (fuel : ℕ)
    (hfuel : fuel ≤ whole.length + 1) :
    (∀ s v rest, parseValue fuel s = some (v, rest) → LeftAt whole s → C v →
      Outside (ValueAt C) s rest) ∧
    (∀ s items rest, parseElements fuel s = some (items, rest) → LeftAt whole s →
      (∀ x ∈ items, C x) → Outside (ValueAt C) s rest) ∧
    ∀ s props rest, parseMembers fuel s = some (props, rest) → LeftAt whole s →
      (∀ p ∈ props, C p.2) → Outside (ValueAt C) s rest := by
  induction fuel with
  | zero =>
      refine ⟨?_, ?_, ?_⟩
      · intro s v rest h
        simp [parseValue] at h
      · intro s items rest h
        simp [parseElements] at h
      · intro s props rest h
        simp [parseMembers] at h
  | succ fuel ih =>
      obtain ⟨hvalue, helements, hmembers⟩ := ih (by omega)
      refine ⟨?_, ?_, ?_⟩
      · intro s v rest h hleft hv
        have hread : ∀ r, skipSpace s = 123 :: r → Outside (ValueAt C) s r := fun r hs =>
          outside_open hs ⟨fuel + 1, v, rest, by rw [← hs, parseValue_skipSpace, h], hv⟩
        rcases parseValue_eq_some.mp h with ⟨r, hs, hr, rfl⟩ |
          ⟨r, d, r', props, hs, hr, hd, hprops, rfl⟩ | ⟨r, hs, hr, rfl⟩ |
          ⟨r, d, r', items, hs, hr, hd, hitems, rfl⟩ | ⟨c, r, hs, hobject, harray, hatom⟩
        · exact (hread r hs).trans (outside_mark hr (by decide))
        · have hopened := (hleft.mark hs (by decide)).space hr
          have hall := hC.members fuel _ _ _ (by omega) hopened hprops hv
          exact ((hread r hs).trans (outside_space hr)).trans (hmembers _ _ _ hprops hopened hall)
        · exact (outside_mark hs (by decide)).trans (outside_mark hr (by decide))
        · have hopened := (hleft.mark hs (by decide)).space hr
          exact ((outside_mark hs (by decide)).trans (outside_space hr)).trans
            (helements _ _ _ hitems hopened (hC.items _ hv))
        · exact outside_atom hs hatom
      · intro s items rest h hleft hall
        obtain ⟨v, after, hv, ⟨r, more, hafter, hmore, rfl⟩ | ⟨hafter, rfl⟩⟩ :=
          parseElements_eq_some.mp h
        · have hfirst := hvalue _ _ _ hv hleft (hall v List.mem_cons_self)
          have hnext := helements _ _ _ hmore ((hleft.outside hfirst).mark hafter (by decide))
            fun x hx => hall x (List.mem_cons_of_mem v hx)
          exact (hfirst.trans (outside_mark hafter (by decide))).trans hnext
        · have hlast := hvalue _ _ _ hv hleft (hall v List.mem_cons_self)
          exact hlast.trans (outside_mark hafter (by decide))
      · intro s props rest h hleft hall
        obtain ⟨opened, key, closed, colon, v, after, hs, hkey, hclosed, hv, hends⟩ :=
          parseMembers_eq_some.mp h
        have hkeyRead : Outside (ValueAt C) s colon :=
          ((outside_space hs).trans (outside_string hkey)).trans
            (outside_mark hclosed (by decide))
        have hcolon := hleft.outside hkeyRead
        rcases hends with ⟨r, more, hafter, hmore, rfl⟩ | ⟨hafter, rfl⟩
        · have hfirst := hkeyRead.trans (hvalue _ _ _ hv hcolon (hall _ List.mem_cons_self))
          have hnext := hmembers _ _ _ hmore ((hleft.outside hfirst).mark hafter (by decide))
            fun p hp => hall p (List.mem_cons_of_mem _ hp)
          exact (hfirst.trans (outside_mark hafter (by decide))).trans hnext
        · have hlast := hkeyRead.trans (hvalue _ _ _ hv hcolon (hall _ List.mem_cons_self))
          exact hlast.trans (outside_mark hafter (by decide))

/-! ## Read from inside a string -/

/-- Where a scan of what is read of `s` goes through from inside a string, it
ends inside one, and `Q` holds. -/
def Inside (Q : Prop) (s rest : JsString) : Prop :=
  ∃ used, s = used ++ rest ∧ ∀ m, scan .quoted used = some m → m = .quoted ∧ Q

variable {Q Q' : Prop}

theorem Inside.trans (hfirst : Inside Q s mid) (hsecond : Inside Q' mid rest) :
    Inside (Q ∧ Q') s rest := by
  obtain ⟨used, rfl, hquoted⟩ := hfirst
  obtain ⟨used', rfl, hquoted'⟩ := hsecond
  refine ⟨used ++ used', (List.append_assoc _ _ _).symm, fun m hm => ?_⟩
  rw [scan_append] at hm
  obtain ⟨m', hm', hm⟩ := Option.bind_eq_some_iff.mp hm
  obtain ⟨rfl, hQ⟩ := hquoted m' hm'
  exact ⟨(hquoted' m hm).1, hQ, (hquoted' m hm).2⟩

theorem Inside.imp (h : Inside Q s rest) (himp : Q → Q') : Inside Q' s rest := by
  obtain ⟨used, hused, hquoted⟩ := h
  exact ⟨used, hused, fun m hm => (hquoted m hm).imp_right himp⟩

theorem inside_structural {used : JsString} (h : ∀ c ∈ used, isStructural c = true)
    (rest : JsString) : Inside True (used ++ rest) rest :=
  ⟨used, rfl, fun _ hm => ⟨scan_quoted_structural h hm, trivial⟩⟩

theorem inside_space {c : CodeUnit} (h : skipSpace s = c :: rest) : Inside True s (c :: rest) := by
  obtain ⟨spaces, hs, hspaces⟩ := exists_spaces s
  rw [hs, h]
  exact inside_structural (fun u hu => structural_of_space (hspaces u hu)) _

theorem inside_mark {c : CodeUnit} (h : skipSpace s = c :: rest) (hc : isStructural c = true) :
    Inside True s rest := by
  have hmark : Inside True ([c] ++ rest) rest := inside_structural (by simpa using hc) rest
  exact ((inside_space h).trans hmark).imp fun _ => trivial

/-- The quote that opens a literal for the reader closes a string of the text,
so the units of the literal are outside the strings. -/
theorem inside_string {key : JsString} (h : parseString s = some (key, rest)) :
    Inside (∀ u ∈ key, isStructural u = true) (34 :: s) rest := by
  have hbody : ∃ used, s = used ++ rest ∧ ∀ m, scan .plain used = some m →
      m = .quoted ∧ ∀ u ∈ key, isStructural u = true := by
    have hback : Mode.next .plain 92 = none := by decide
    apply parseString_ind (P := fun s key rest => ∃ used, s = used ++ rest ∧
      ∀ m, scan .plain used = some m → m = .quoted ∧ ∀ u ∈ key, isStructural u = true) _ _ _ _ h
    · intro rest
      exact ⟨[34], rfl, fun m hm => ⟨(Option.some.inj hm).symm, by simp⟩⟩
    · rintro w x y z u s key rest - ⟨used, rfl, -⟩
      refine ⟨92 :: 117 :: w :: x :: y :: z :: used, rfl, fun m hm => ?_⟩
      simp [scan, hback] at hm
    · rintro e u s key rest - ⟨used, rfl, -⟩
      refine ⟨92 :: e :: used, rfl, fun m hm => ?_⟩
      simp [scan, hback] at hm
    · rintro c s key rest hquote - - ⟨used, rfl, hused⟩
      refine ⟨c :: used, rfl, fun m hm => ?_⟩
      rw [scan, Mode.next, if_neg hquote] at hm
      split_ifs at hm with hc
      · exact (hused m hm).imp_right fun hkey => List.forall_mem_cons.mpr ⟨hc, hkey⟩
      · cases hm
  obtain ⟨used, rfl, hused⟩ := hbody
  exact ⟨34 :: used, rfl, hused⟩

theorem inside_atom {c : CodeUnit} {r : JsString} {v : JsValue} (hs : skipSpace s = c :: r)
    (h : parseAtom c r = some (v, rest)) : Inside True s rest := by
  have hatom : Inside True (c :: r) rest := by
    obtain ⟨-, ⟨rfl, key, hkey⟩ | ⟨used, hused, hunits⟩⟩ := parseAtom_cases h
    · exact (inside_string hkey).imp fun _ => trivial
    · rw [hused]
      exact inside_structural (fun u hu => (hunits u hu).1) rest
  exact ((inside_space hs).trans hatom).imp fun _ => trivial

def KeysStructural (props : List (JsString × JsValue)) : Prop :=
  ∀ p ∈ props, ∀ u ∈ p.1, isStructural u = true

theorem parse_inside (fuel : ℕ) :
    (∀ s v rest, parseValue fuel s = some (v, rest) →
      Inside (∀ props, v = .obj props → KeysStructural props) s rest) ∧
    (∀ s items rest, parseElements fuel s = some (items, rest) → Inside True s rest) ∧
    ∀ s props rest, parseMembers fuel s = some (props, rest) →
      Inside (KeysStructural props) s rest := by
  have hkeys : ∀ s opened key closed colon v after, skipSpace s = 34 :: opened →
      parseString opened = some (key, closed) → skipSpace closed = 58 :: colon →
      Inside (∀ props, v = JsValue.obj props → KeysStructural props) colon after →
      Inside (KeysStructural [(key, v)]) s after := by
    intro s opened key closed colon v after hs hkey hclosed hv
    have hread := (((inside_space hs).trans (inside_string hkey)).trans
      (inside_mark hclosed (by decide))).trans hv
    exact hread.imp fun h => List.forall_mem_singleton.mpr h.1.1.2
  apply parse_ind
    (V := fun _ s v rest => Inside (∀ props, v = .obj props → KeysStructural props) s rest)
    (E := fun _ s _ rest => Inside True s rest)
    (M := fun _ s props rest => Inside (KeysStructural props) s rest)
  · intro fuel s r rest hs hr
    have hread := (inside_mark hs (by decide)).trans (inside_mark hr (by decide))
    refine hread.imp fun _ props hprops => ?_
    obtain rfl := JsValue.obj.inj hprops
    exact fun p hp => absurd hp List.not_mem_nil
  · intro fuel s r d r' props rest hs hr _ hprops
    have hread := ((inside_mark hs (by decide)).trans (inside_space hr)).trans hprops
    refine hread.imp fun h props' hprops' => ?_
    obtain rfl := JsValue.obj.inj hprops'
    exact fun p hp => h.2 p (mem_of_mem_buildProps hp)
  · intro fuel s r rest hs hr
    have hread := (inside_mark hs (by decide)).trans (inside_mark hr (by decide))
    exact hread.imp fun _ _ => nofun
  · intro fuel s r d r' items rest hs hr _ hitems
    have hread := ((inside_mark hs (by decide)).trans (inside_space hr)).trans hitems
    exact hread.imp fun _ _ => nofun
  · intro fuel s c r v rest hs _ _ hatom
    exact (inside_atom hs hatom).imp fun _ props hv => absurd hv ((parseAtom_cases hatom).1 props)
  · intro fuel s v after rest hv hafter
    exact (hv.trans (inside_mark hafter (by decide))).imp fun _ => trivial
  · intro fuel s v after r more rest hv hafter hmore
    exact ((hv.trans (inside_mark hafter (by decide))).trans hmore).imp fun _ => trivial
  · intro fuel s opened key closed colon v after rest hs hkey hclosed hv hafter
    have hread := hkeys _ _ _ _ _ _ _ hs hkey hclosed hv
    exact (hread.trans (inside_mark hafter (by decide))).imp fun h => h.1
  · intro fuel s opened key closed colon v after r more rest hs hkey hclosed hv hafter hmore
    have hread := hkeys _ _ _ _ _ _ _ hs hkey hclosed hv
    exact ((hread.trans (inside_mark hafter (by decide))).trans hmore).imp fun h =>
      List.forall_mem_cons.mpr ⟨List.forall_mem_singleton.mp h.1.1, h.2⟩

/-! ## Whole texts -/

variable {text : JsString} {v : JsValue} {props : List (JsString × JsValue)}

theorem parseJson_eq_some : parseJson text = some v ↔
    ∃ rest, parseValue (text.length + 1) text = some (v, rest) ∧ Spaces rest := by
  rw [parseJson]
  cases h : parseValue (text.length + 1) text with
  | none => simp
  | some p =>
      obtain ⟨w, rest⟩ := p
      simp only [Option.some.injEq, Prod.mk.injEq]
      constructor
      · intro hspaces
        split_ifs at hspaces with hrest
        exact ⟨rest, ⟨Option.some.inj hspaces, rfl⟩, skipSpace_eq_nil.mp hrest⟩
      · rintro ⟨_, ⟨rfl, rfl⟩, hrest⟩
        exact if_pos (skipSpace_eq_nil.mpr hrest)

theorem scan_parseJson (h : parseJson text = some v) : scan .plain text = some .plain := by
  obtain ⟨rest, hread, hspaces⟩ := parseJson_eq_some.mp h
  have hany : HandedDown (fun _ => True) text :=
    ⟨fun _ _ _ _ => trivial, fun _ _ _ _ _ _ _ _ _ _ => trivial⟩
  obtain ⟨used, hused, hplain, -⟩ :=
    (parse_outside hany _ le_rfl).1 _ _ _ hread ⟨[], rfl, rfl⟩ trivial
  rw [hused, scan_append_of_eq hplain]
  exact scan_plain_structural fun c hc => structural_of_space (hspaces c hc)

theorem keysStructural_of_quoted {fuel : ℕ} (h : parseValue fuel s = some (.obj props, rest))
    {m : Mode} (hm : scan .quoted s = some m) : KeysStructural props := by
  obtain ⟨used, rfl, hquoted⟩ := (parse_inside fuel).1 _ _ _ h
  rw [scan_append] at hm
  obtain ⟨m', hm', -⟩ := Option.bind_eq_some_iff.mp hm
  exact (hquoted m' hm').2 props rfl

/-- No object of the text is written with a key twice. -/
def KeysOnce (text : JsString) : Prop :=
  ∀ s props rest, LeftAt text s → parseMembers text.length s = some (props, rest) →
    (keys props).Nodup

/-- The members read from each place outside the strings have distinct keys. -/
def checkKeys (fuel : ℕ) : Mode → JsString → Bool
  | _, [] => true
  | m, c :: s =>
      (m != .plain ||
        match parseMembers fuel (c :: s) with
        | some (props, _) => decide (keys props).Nodup
        | none => true) &&
      match m.next c with
      | some m' => checkKeys fuel m' s
      | none => true

theorem nodup_of_checkKeys {fuel : ℕ} {m : Mode} {front : JsString}
    (hcheck : checkKeys fuel m (front ++ s) = true) (hfront : scan m front = some .plain)
    (h : parseMembers fuel s = some (props, rest)) : (keys props).Nodup := by
  induction front generalizing m with
  | nil =>
      obtain rfl := Option.some.inj hfront
      cases s with
      | nil =>
          cases fuel with
          | zero => simp [parseMembers] at h
          | succ fuel => simp [parseMembers, skipSpace] at h
      | cons c s =>
          rw [List.nil_append, checkKeys, h] at hcheck
          simpa using (Bool.and_eq_true_iff.mp hcheck).1
  | cons c front ih =>
      obtain ⟨m', hm', hfront⟩ := Option.bind_eq_some_iff.mp hfront
      rw [List.cons_append, checkKeys, hm'] at hcheck
      exact ih (Bool.and_eq_true_iff.mp hcheck).2 hfront

theorem keysOnce_of_checkKeys (h : checkKeys text.length .plain text = true) : KeysOnce text := by
  rintro s props rest ⟨front, hwhole, hfront⟩ hread
  exact nodup_of_checkKeys (hwhole ▸ h) hfront hread

theorem mem_buildProps_of_nodup {p : JsString × JsValue} (h : (keys props).Nodup)
    (hp : p ∈ props) : p ∈ buildProps props :=
  mem_of_ownValue ((ownValue_buildProps h p.1).trans (ownValue_of_mem h hp))

theorem parseMembers_mono {fuel more : ℕ} (hle : fuel ≤ more)
    (h : parseMembers fuel s = some (props, rest)) : parseMembers more s = some (props, rest) := by
  induction more, hle using Nat.le_induction with
  | base => exact h
  | succ more _ ih => exact (parse_succ more).2.2 _ _ _ ih

/-- A brace behind the first one opens an object nested in the one of the text. -/
theorem readable_inner {C : JsValue → Prop} (hitems : ∀ items, C (.arr items) → ∀ x ∈ items, C x)
    (hprops : ∀ props, C (.obj props) → ∀ p ∈ props, C p.2) (honce : KeysOnce text)
    (h : parseJson text = some (.obj props)) (hall : ∀ p ∈ props, C p.2) {front back : JsString}
    (htext : text = 123 :: (front ++ 123 :: back)) (hfront : scan .plain front = some .plain) :
    ValueAt C (123 :: back) := by
  have hC : HandedDown C text := ⟨hitems, fun fuel s props rest hfuel hleft hread hobj p hp =>
    hprops _ hobj p (mem_buildProps_of_nodup (honce s props rest hleft
      (parseMembers_mono hfuel hread)) hp)⟩
  obtain ⟨rest, hread, hspaces⟩ := parseJson_eq_some.mp h
  have hopen : skipSpace text = 123 :: (front ++ 123 :: back) := by
    rw [htext, skipSpace_cons _ (by decide)]
  have hleft : LeftAt text (front ++ 123 :: back) := ⟨[123], htext, by decide⟩
  have hinner : Outside (ValueAt C) (front ++ 123 :: back) rest := by
    rcases parseValue_eq_some.mp hread with
      ⟨r, hs, hr, -⟩ | ⟨r, d, r', raw, hs, hr, -, hraw, hobj⟩ |
      ⟨r, hs, -⟩ | ⟨r, d, r', items, hs, -⟩ | ⟨c, r, hs, hobject, -⟩
    · obtain ⟨-, rfl⟩ := List.cons.inj (hopen.symm.trans hs)
      exact outside_mark hr (by decide)
    · obtain ⟨-, rfl⟩ := List.cons.inj (hopen.symm.trans hs)
      obtain rfl := JsValue.obj.inj hobj
      have hnodup := honce _ _ _ (hleft.space hr) hraw
      exact (outside_space hr).trans ((parse_outside hC _ (Nat.le_succ _)).2.2 _ _ _ hraw
        (hleft.space hr) fun p hp => hall p (mem_buildProps_of_nodup hnodup hp))
    · exact absurd (List.cons.inj (hopen.symm.trans hs)).1 (by decide)
    · exact absurd (List.cons.inj (hopen.symm.trans hs)).1 (by decide)
    · exact absurd (List.cons.inj (hopen.symm.trans hs)).1.symm hobject
  obtain ⟨used, hsplit, -, hopens⟩ := hinner
  rcases List.append_eq_append_iff.mp hsplit with ⟨more, rfl, hmore⟩ | ⟨more, rfl, hmore⟩
  · cases more with
    | nil =>
        obtain rfl : 123 :: back = rest := hmore
        exact absurd (hspaces 123 List.mem_cons_self) (by decide)
    | cons c more =>
        obtain ⟨rfl, rfl⟩ := List.cons.inj hmore
        exact hopens front more rfl hfront
  · have hbrace : (123 : CodeUnit) ∈ rest := by simp [hmore]
    exact absurd (hspaces 123 hbrace) (by decide)

/-- What is scanned to a place outside the strings does not end in a replacement
character. -/
theorem scan_last {m : Mode} {front : JsString} {c : CodeUnit}
    (h : scan m (front ++ [c]) = some .plain) : c ≠ 0xFFFD := by
  rintro rfl
  rw [scan_append] at h
  obtain ⟨m', -, hlast⟩ := Option.bind_eq_some_iff.mp h
  cases m' with
  | plain => exact absurd hlast (by decide)
  | quoted => exact absurd hlast (by decide)
  | escaped => exact absurd hlast (by decide)

/-- What starts with a brace is read as an object. -/
theorem parseValue_brace {fuel : ℕ} (h : parseValue fuel (123 :: s) = some (v, rest)) :
    ∃ props, v = .obj props := by
  cases fuel with
  | zero => simp [parseValue] at h
  | succ fuel =>
      have hopen : skipSpace (123 :: s) = 123 :: s := skipSpace_cons s (by decide)
      rcases parseValue_eq_some.mp h with ⟨_, _, _, rfl⟩ | ⟨_, _, _, _, _, _, _, _, rfl⟩ |
        ⟨_, hs, _⟩ | ⟨_, _, _, _, hs, _⟩ | ⟨c, r, hs, hobject, _⟩
      · exact ⟨_, rfl⟩
      · exact ⟨_, rfl⟩
      · exact absurd (List.cons.inj (hopen.symm.trans hs)).1 (by decide)
      · exact absurd (List.cons.inj (hopen.symm.trans hs)).1 (by decide)
      · exact absurd (List.cons.inj (hopen.symm.trans hs)).1.symm hobject

/-- An object in a text stands between spaces. -/
theorem parseJson_object (h : parseJson text = some (.obj props)) :
    ∃ spaces back rest, text = spaces ++ 123 :: back ∧ Spaces spaces ∧
      parseValue (text.length + 1) (123 :: back) = some (.obj props, rest) ∧ Spaces rest := by
  obtain ⟨rest, hread, hrest⟩ := parseJson_eq_some.mp h
  obtain ⟨spaces, htext, hspaces⟩ := exists_spaces text
  have hopen : ∃ back, skipSpace text = 123 :: back := by
    rcases parseValue_eq_some.mp hread with ⟨r, hs, -⟩ | ⟨r, _, _, _, hs, -⟩ | ⟨_, _, _, hv⟩ |
      ⟨_, _, _, _, _, _, _, _, hv⟩ | ⟨_, _, _, _, _, hatom⟩
    · exact ⟨r, hs⟩
    · exact ⟨r, hs⟩
    · cases hv
    · cases hv
    · exact absurd rfl ((parseAtom_cases hatom).1 props)
  obtain ⟨back, hback⟩ := hopen
  rw [hback] at htext
  refine ⟨spaces, back, rest, htext, hspaces, ?_, hrest⟩
  rw [← hback, parseValue_skipSpace, hread]

/-- Spaces around an object do not change what is read. -/
theorem parseJson_spaces {spaces trail : JsString}
    (h : parseJson (123 :: s) = some v) (hspaces : Spaces spaces) (htrail : Spaces trail) :
    parseJson (spaces ++ (123 :: s ++ trail)) = some v := by
  obtain ⟨rest, hread, hrest⟩ := parseJson_eq_some.mp h
  obtain ⟨props, rfl⟩ := parseValue_brace hread
  have hmore := (parse_append _).1 _ _ _ hread trail (by rintro ⟨_, hnum⟩; cases hnum)
  have hskip : skipSpace (spaces ++ (123 :: s ++ trail)) = 123 :: s ++ trail := by
    rw [skipSpace, List.dropWhile_append_of_pos hspaces]
    exact skipSpace_cons _ (by decide)
  refine parseJson_eq_some.mpr ⟨rest ++ trail, ?_, ?_⟩
  · rw [← parseValue_skipSpace, hskip]
    exact parseValue_mono (by simp; omega) hmore
  · exact fun c hc => (List.mem_append.mp hc).elim (hrest c) (htrail c)

end OpticsAgent.Ecma
