import Mathlib
import OpticsAgent.Ecma.Text
import OpticsAgent.Lib.Lines
import OpticsAgent.Node.Utf8

/-!
The text of docker's output: `stripAnsi` of `docker-cli.ts` and `outputLines` of
`docker-output.util.ts`. A blank line is one that is empty once escape sequences
and the white space around it are gone.
-/

namespace OpticsAgent.Docker

open OpticsAgent.Ecma OpticsAgent.Node OpticsAgent.Lib

/-! The classes of `/\x1B(?:[@-Z\\-_]|\[[0-?]*[\x20-\x2F]*[@-~])/`. -/

/-- `[@-Z\\-_]`. -/
def isSingleFinal (c : CodeUnit) : Bool :=
  (64 ≤ c.val && c.val ≤ 90) || (92 ≤ c.val && c.val ≤ 95)

/-- `[0-?]`. -/
def isParameter (c : CodeUnit) : Bool := 48 ≤ c.val && c.val ≤ 63

/-- `[\x20-\x2F]`. -/
def isIntermediate (c : CodeUnit) : Bool := 32 ≤ c.val && c.val ≤ 47

/-- `[@-~]`. -/
def isFinal (c : CodeUnit) : Bool := 64 ≤ c.val && c.val ≤ 126

/-- The length of `[0-?]*[\x20-\x2F]*[@-~]` at the front; 0 without a match. -/
def controlLength (s : JsString) : ℕ :=
  let tail := s.dropWhile isParameter
  match tail.dropWhile isIntermediate with
  | [] => 0
  | final :: rest => if isFinal final then s.length - rest.length else 0

/-- The length of the escape sequence at the front; 0 without one. -/
def escapeLength : JsString → ℕ
  | escape :: c :: rest =>
      if escape ≠ 27 then 0
      else if isSingleFinal c then 2
      else if c = 91 ∧ controlLength rest ≠ 0 then controlLength rest + 2
      else 0
  | _ => 0

/-- The text without escape sequences, behind the first `skip` units. -/
def stripFrom : ℕ → JsString → JsString
  | _, [] => []
  | skip + 1, _ :: rest => stripFrom skip rest
  | 0, c :: rest =>
      match escapeLength (c :: rest) with
      | 0 => c :: stripFrom 0 rest
      | n + 1 => stripFrom n rest

def stripAnsi (s : JsString) : JsString := stripFrom 0 s

/-- `stripAnsi(line).trim()`. -/
def cleanLine (line : JsString) : JsString := trim (stripAnsi line)

/-- `text.split(/\r?\n|\r/)`. -/
def splitLines : JsString → List JsString
  | [] => [[]]
  | 13 :: 10 :: rest => [] :: splitLines rest
  | c :: rest =>
      if c = 10 ∨ c = 13 then [] :: splitLines rest
      else
        match splitLines rest with
        | [] => [[c]]
        | line :: lines => (c :: line) :: lines

/-- The cleaned lines that are not blank. -/
def visibleLines (lines : List JsString) : List JsString :=
  (lines.map cleanLine).filter fun line => line ≠ []

def outputLines (text : JsString) : List JsString := visibleLines (splitLines text)

example : outputLines (js "\x1b[1mUp\x1b[0m \r\n\r\n 3 steps\rdone") =
    [js "Up", js "3 steps", js "done"] := by
  decide +kernel

/-! ## Trimming -/

theorem dropWhile_of_head {p : CodeUnit → Bool} {s : JsString}
    (h : ∀ c, s.head? = some c → p c = false) : s.dropWhile p = s := by
  cases s with
  | nil => rfl
  | cons c s => exact List.dropWhile_cons_of_neg (by simp [h c rfl])

theorem trim_of_ends {s : JsString} (hfirst : ∀ c, s.head? = some c → isTrimmed c = false)
    (hlast : ∀ c, s.getLast? = some c → isTrimmed c = false) : trim s = s := by
  rw [trim, dropWhile_of_head hfirst, dropWhile_of_head (by rwa [List.head?_reverse]),
    List.reverse_reverse]

theorem trim_eq_nil_iff {s : JsString} : trim s = [] ↔ ∀ c ∈ s, isTrimmed c = true := by
  unfold trim
  rw [List.reverse_eq_nil_iff, List.dropWhile_eq_nil_iff]
  constructor
  · intro h c hc
    by_contra hkept
    have hmem : c ∈ s.dropWhile isTrimmed := by
      rw [← List.takeWhile_append_dropWhile (p := isTrimmed) (l := s)] at hc
      refine (List.mem_append.mp hc).resolve_left fun htaken => ?_
      exact hkept (List.mem_takeWhile_imp htaken)
    exact hkept (h c (List.mem_reverse.mpr hmem))
  · intro h c hc
    exact h c ((List.dropWhile_suffix _).subset (List.mem_reverse.mp hc))

theorem trim_append_left {a b : JsString} (h : ∀ c ∈ a, isTrimmed c = true) :
    trim (a ++ b) = trim b := by
  rw [trim, List.dropWhile_append_of_pos h, trim]

theorem trim_append_right {a b : JsString} (h : ∀ c ∈ b, isTrimmed c = true) :
    trim (a ++ b) = trim a := by
  unfold trim
  rw [List.dropWhile_append]
  cases hnil : (a.dropWhile isTrimmed).isEmpty with
  | true =>
      rw [List.isEmpty_iff.mp hnil, if_pos rfl, List.dropWhile_eq_nil_iff.mpr h]
  | false =>
      rw [if_neg (by simp), List.reverse_append,
        List.dropWhile_append_of_pos fun c hc => h c (List.mem_reverse.mp hc)]

/-! ## Escape sequences at a cut -/

theorem controlLength_append_of_pos {s : JsString} {n : ℕ} (h : controlLength s = n + 1)
    (t : JsString) : controlLength (s ++ t) = n + 1 := by
  unfold controlLength at h ⊢
  dsimp only at h ⊢
  cases htail : s.dropWhile isParameter with
  | nil => simp [htail] at h
  | cons c tail =>
      cases hrest : (c :: tail).dropWhile isIntermediate with
      | nil => simp [htail, hrest] at h
      | cons final rest =>
          rw [htail, hrest] at h
          rw [List.dropWhile_append, htail, if_neg (by simp), List.dropWhile_append, hrest,
            if_neg (by simp), List.cons_append]
          dsimp only at h ⊢
          split_ifs at h ⊢ with hfinal
          simp only [List.length_append]
          omega

/-- Text in front of which no control sequence can end: no parameter, and no
final behind the intermediates. -/
def Inert (t : JsString) : Prop :=
  (∀ c, t.head? = some c → isParameter c = false) ∧
    ∀ c, (t.dropWhile isIntermediate).head? = some c → isFinal c = false

theorem controlLength_append_inert {s t : JsString} (ht : Inert t)
    (h : controlLength s = 0) : controlLength (s ++ t) = 0 := by
  have hparameters : t.dropWhile isParameter = t := by
    cases t with
    | nil => rfl
    | cons c rest => simp [ht.1 c rfl]
  have hdone : ∀ {tail : JsString}, tail.dropWhile isIntermediate = [] →
      (match (tail ++ t).dropWhile isIntermediate with
        | [] => 0
        | final :: rest => if isFinal final then (s ++ t).length - rest.length else 0) = 0 := by
    intro tail htail
    rw [List.dropWhile_append, htail, List.isEmpty_nil, if_pos rfl]
    cases hrest : t.dropWhile isIntermediate with
    | nil => rfl
    | cons final rest => simp [ht.2 final (by rw [hrest]; rfl)]
  unfold controlLength at h ⊢
  dsimp only at h ⊢
  rw [List.dropWhile_append]
  cases htail : s.dropWhile isParameter with
  | nil =>
      rw [List.isEmpty_nil, if_pos rfl, hparameters]
      exact @hdone [] rfl
  | cons c tail =>
      rw [if_neg (by simp)]
      cases hrest : (c :: tail).dropWhile isIntermediate with
      | nil => exact hdone hrest
      | cons final rest =>
          rw [htail, hrest] at h
          rw [List.dropWhile_append, hrest, if_neg (by simp), List.cons_append]
          dsimp only at h ⊢
          split_ifs at h ⊢ with hfinal
          · have hlength : rest.length < s.length := by
              have hsuffix : (final :: rest) <:+ s := by
                rw [← hrest]
                exact (List.dropWhile_suffix _).trans (htail ▸ List.dropWhile_suffix _)
              simpa using hsuffix.length_le
            omega
          · rfl

theorem escapeLength_append_of_pos {s : JsString} {n : ℕ} (h : escapeLength s = n + 1)
    (t : JsString) : escapeLength (s ++ t) = n + 1 := by
  match s, h with
  | escape :: c :: rest, h =>
      simp only [escapeLength] at h
      simp only [List.cons_append, escapeLength]
      split_ifs at h with hescape hsingle hcontrol
      · simpa [hescape, hsingle] using h
      · obtain ⟨rfl, hpos⟩ := hcontrol
        obtain ⟨m, hm⟩ := Nat.exists_eq_succ_of_ne_zero hpos
        have happend := controlLength_append_of_pos hm t
        rw [hm] at h
        simpa [hescape, hsingle, happend] using h

theorem escapeLength_append_inert {s t : JsString} (hs : s ≠ []) (ht : Inert t)
    (hfirst : ∀ c, t.head? = some c → isSingleFinal c = false ∧ c ≠ 91)
    (h : escapeLength s = 0) : escapeLength (s ++ t) = 0 := by
  match s, hs, h with
  | [escape], _, _ =>
      cases t with
      | nil => rfl
      | cons c rest =>
          obtain ⟨hsingle, hcontrol⟩ := hfirst c rfl
          simp [escapeLength, hsingle, hcontrol]
  | escape :: c :: rest, _, h =>
      simp only [escapeLength] at h
      simp only [List.cons_append, escapeLength]
      split_ifs at h with hescape hsingle hcontrol
      · simp [hescape]
      · by_cases hc : c = 91
        · have hzero : controlLength rest = 0 := by
            by_contra hne
            exact hcontrol ⟨hc, hne⟩
          simp [hsingle, controlLength_append_inert ht hzero]
        · simp [hsingle, hc]

theorem escapeLength_le_length (s : JsString) : escapeLength s ≤ s.length := by
  match s with
  | [] => simp [escapeLength]
  | [_] => simp [escapeLength]
  | escape :: c :: rest =>
      have hcontrol : controlLength rest ≤ rest.length := by
        unfold controlLength
        dsimp only
        split
        · exact Nat.zero_le _
        · split_ifs <;> omega
      simp only [escapeLength, List.length_cons]
      split_ifs <;> omega

/-- An escape sequence starts with ESC. -/
theorem escapeLength_of_ne {c : CodeUnit} (h : c ≠ 27) (rest : JsString) :
    escapeLength (c :: rest) = 0 := by
  cases rest with
  | nil => rfl
  | cons d rest => simp [escapeLength, h]

/-! ## Cleaning the two sides of a cut -/

theorem cleanLine_eq_nil_iff {s : JsString} :
    cleanLine s = [] ↔ ∀ c ∈ stripAnsi s, isTrimmed c = true := trim_eq_nil_iff

theorem ne_escape_of_trimmed {c : CodeUnit} (h : isTrimmed c = true) : c ≠ 27 := by
  rintro rfl
  exact absurd h (by decide)

/-- A blank front is read to its end before the rest begins. -/
theorem stripFrom_append_left {skip : ℕ} {a : JsString} (hskip : skip ≤ a.length)
    (ha : ∀ c ∈ stripFrom skip a, isTrimmed c = true) (b : JsString) :
    stripFrom skip (a ++ b) = stripFrom skip a ++ stripFrom 0 b := by
  induction a generalizing skip with
  | nil =>
      obtain rfl := Nat.le_zero.mp hskip
      simp [stripFrom]
  | cons c rest ih =>
      cases skip with
      | succ skip =>
          simp only [List.length_cons, Nat.succ_le_succ_iff] at hskip
          exact ih hskip ha
      | zero =>
          rw [List.cons_append, stripFrom, stripFrom] at *
          cases hescape : escapeLength (c :: rest) with
          | zero =>
              rw [hescape] at ha
              have hc := ha c List.mem_cons_self
              have hne := ne_escape_of_trimmed hc
              rw [escapeLength_of_ne hne]
              exact congrArg (List.cons c)
                (ih (Nat.zero_le _) fun d hd => ha d (List.mem_cons_of_mem c hd))
          | succ n =>
              rw [hescape] at ha
              have hle := escapeLength_le_length (c :: rest)
              rw [← List.cons_append, escapeLength_append_of_pos hescape]
              exact ih (by simp only [List.length_cons] at hle; omega) ha

/-- No escape sequence runs into a blank rest. -/
theorem inert_of_blank {b : JsString} (hb : ∀ c ∈ stripFrom 0 b, isTrimmed c = true) :
    Inert b ∧ ∀ c, b.head? = some c → isSingleFinal c = false ∧ c ≠ 91 := by
  have hunit : ∀ {c : CodeUnit} {rest : JsString},
      (∀ d ∈ stripFrom 0 (c :: rest), isTrimmed d = true) → isTrimmed c = true ∨ c = 27 := by
    intro c rest h
    by_cases hc : c = 27
    · exact Or.inr hc
    · rw [stripFrom, escapeLength_of_ne hc] at h
      exact Or.inl (h c List.mem_cons_self)
  have hclass : ∀ {c : CodeUnit}, isTrimmed c = true ∨ c = 27 →
      isParameter c = false ∧ isSingleFinal c = false ∧ isFinal c = false ∧ c ≠ 91 := by
    intro c h
    simp only [isTrimmed, isParameter, isSingleFinal, isFinal, Fin.ext_iff, Bool.or_eq_true,
      Bool.and_eq_true, decide_eq_true_eq, beq_iff_eq, Bool.and_eq_false_iff, Bool.or_eq_false_iff,
      decide_eq_false_iff_not, ne_eq] at h ⊢
    omega
  have hhead : ∀ {c : CodeUnit}, b.head? = some c → isTrimmed c = true ∨ c = 27 := by
    intro c hc
    cases b with
    | nil => cases hc
    | cons d rest =>
        obtain rfl := Option.some.inj hc
        exact hunit hb
  refine ⟨⟨fun c hc => (hclass (hhead hc)).1, ?_⟩,
    fun c hc => ⟨(hclass (hhead hc)).2.1, (hclass (hhead hc)).2.2.2⟩⟩
  clear hhead
  induction b with
  | nil => simp
  | cons d rest ih =>
      rw [List.dropWhile_cons]
      split_ifs with hd
      · have hne : d ≠ 27 := by
          rintro rfl
          exact absurd hd (by decide)
        rw [stripFrom, escapeLength_of_ne hne] at hb
        exact ih fun c hc => hb c (List.mem_cons_of_mem d hc)
      · intro c hc
        obtain rfl := Option.some.inj hc
        exact (hclass (hunit hb)).2.2.1

theorem stripFrom_append_right {skip : ℕ} {a b : JsString} (hskip : skip ≤ a.length)
    (hb : ∀ c ∈ stripFrom 0 b, isTrimmed c = true) :
    stripFrom skip (a ++ b) = stripFrom skip a ++ stripFrom 0 b := by
  obtain ⟨hinert, hfirst⟩ := inert_of_blank hb
  induction a generalizing skip with
  | nil =>
      obtain rfl := Nat.le_zero.mp hskip
      simp [stripFrom]
  | cons c rest ih =>
      cases skip with
      | succ skip =>
          simp only [List.length_cons, Nat.succ_le_succ_iff] at hskip
          exact ih hskip
      | zero =>
          rw [List.cons_append, stripFrom, stripFrom]
          cases hescape : escapeLength (c :: rest) with
          | zero =>
              rw [← List.cons_append, escapeLength_append_inert (by simp) hinert hfirst hescape]
              exact congrArg (List.cons c) (ih (Nat.zero_le _))
          | succ n =>
              have hle := escapeLength_le_length (c :: rest)
              rw [← List.cons_append, escapeLength_append_of_pos hescape]
              exact ih (by simp only [List.length_cons] at hle; omega)

theorem cleanLine_append_left {a : JsString} (ha : cleanLine a = []) (b : JsString) :
    cleanLine (a ++ b) = cleanLine b := by
  have hblank := cleanLine_eq_nil_iff.mp ha
  rw [cleanLine, stripAnsi, stripFrom_append_left (Nat.zero_le _) hblank]
  exact trim_append_left hblank

theorem cleanLine_append_right {a b : JsString} (hb : cleanLine b = []) :
    cleanLine (a ++ b) = cleanLine a := by
  have hblank := cleanLine_eq_nil_iff.mp hb
  rw [cleanLine, stripAnsi, stripFrom_append_right (Nat.zero_le _) hblank]
  exact trim_append_right hblank

/-- U+FFFD is no part of an escape sequence and no white space. -/
theorem cleanLine_replacement_ne_nil (a b : JsString) :
    cleanLine (a ++ [0xFFFD]) ≠ [] ∧ cleanLine (0xFFFD :: b) ≠ [] := by
  have hinert : Inert [0xFFFD] := by
    refine ⟨fun c hc => ?_, fun c hc => ?_⟩
    · obtain rfl := Option.some.inj hc
      decide
    · obtain rfl := Option.some.inj hc
      decide
  have hfirst : ∀ c : CodeUnit, [(0xFFFD : CodeUnit)].head? = some c →
      isSingleFinal c = false ∧ c ≠ 91 := by
    intro c hc
    obtain rfl := Option.some.inj hc
    decide
  have hkept : ∀ (front : JsString) (skip : ℕ), skip ≤ front.length →
      (0xFFFD : CodeUnit) ∈ stripFrom skip (front ++ [0xFFFD]) := by
    intro front
    induction front with
    | nil =>
        intro skip hskip
        obtain rfl := Nat.le_zero.mp hskip
        decide
    | cons c rest ih =>
        intro skip hskip
        cases skip with
        | succ skip =>
            simp only [List.length_cons, Nat.succ_le_succ_iff] at hskip
            exact ih skip hskip
        | zero =>
            rw [List.cons_append, stripFrom]
            cases hescape : escapeLength (c :: rest) with
            | zero =>
                rw [← List.cons_append, escapeLength_append_inert (by simp) hinert hfirst hescape]
                exact List.mem_cons_of_mem c (ih 0 (Nat.zero_le _))
            | succ n =>
                have hle := escapeLength_le_length (c :: rest)
                rw [← List.cons_append, escapeLength_append_of_pos hescape]
                exact ih n (by simp only [List.length_cons] at hle; omega)
  have hvisible : isTrimmed 0xFFFD ≠ true := by decide
  constructor
  · intro hnil
    exact hvisible (cleanLine_eq_nil_iff.mp hnil _ (hkept a 0 (Nat.zero_le _)))
  · intro hnil
    refine hvisible (cleanLine_eq_nil_iff.mp hnil _ ?_)
    rw [stripAnsi, stripFrom, escapeLength_of_ne (by decide)]
    exact List.mem_cons_self

/-! ## Lines -/

def isBreak (c : CodeUnit) : Bool := c == 10 || c == 13

def isBreakByte (b : Byte) : Bool := b == 10 || b == 13

/-- What one line shows. -/
def shownLine (line : List Byte) : List JsString := visibleLines [utf8Text line]

theorem visibleLines_cons (line : JsString) (lines : List JsString) :
    visibleLines (line :: lines) = visibleLines [line] ++ visibleLines lines := by
  rw [visibleLines, ← List.singleton_append, List.map_append, List.filter_append]
  rfl

@[simp] theorem visibleLines_empty (lines : List JsString) :
    visibleLines ([] :: lines) = visibleLines lines := visibleLines_cons [] lines

theorem visibleLines_singleton (line : JsString) :
    visibleLines [line] = if cleanLine line = [] then [] else [cleanLine line] := by
  by_cases h : cleanLine line = [] <;> simp [visibleLines, h]

/-- `\r\n` ends one line where `\r` and `\n` alone end a line and an empty one. -/
theorem splitLines_pieces (text : JsString) : ∃ line lines lines',
    splitLines text = line :: lines ∧ pieces isBreak text = line :: lines' ∧
      visibleLines lines = visibleLines lines' := by
  fun_induction splitLines text with
  | case1 => exact ⟨[], [], [], rfl, rfl, rfl⟩
  | case2 rest ih =>
      obtain ⟨line, lines, lines', hsplit, hpieces, hsame⟩ := ih
      refine ⟨[], line :: lines, [] :: line :: lines', by rw [hsplit], ?_, ?_⟩
      · rw [pieces_cons, if_pos (by decide), pieces_cons, if_pos (by decide), hpieces]
      · rw [visibleLines_empty, visibleLines_cons, hsame, ← visibleLines_cons]
  | case3 c rest hcrlf hc ih =>
      obtain ⟨line, lines, lines', hsplit, hpieces, hsame⟩ := ih
      refine ⟨[], line :: lines, line :: lines', by rw [hsplit], ?_, ?_⟩
      · rw [pieces_cons, if_pos (by simpa [isBreak] using hc), hpieces]
      · rw [visibleLines_cons, hsame, ← visibleLines_cons]
  | case4 c rest hcrlf hc hnone ih =>
      obtain ⟨line, lines, lines', hsplit, -, -⟩ := ih
      rw [hsplit] at hnone
      cases hnone
  | case5 c rest hcrlf hc first more hsome ih =>
      obtain ⟨line, lines, lines', hsplit, hpieces, hsame⟩ := ih
      obtain ⟨rfl, rfl⟩ := List.cons.inj (hsome.symm.trans hsplit)
      refine ⟨c :: first, more, lines', rfl, ?_, hsame⟩
      rw [pieces_cons, if_neg (by simpa [isBreak] using hc), hpieces]
      rfl

theorem outputLines_eq (text : JsString) :
    outputLines text = visibleLines (pieces isBreak text) := by
  obtain ⟨line, lines, lines', hsplit, hpieces, hsame⟩ := splitLines_pieces text
  rw [outputLines, hsplit, hpieces, visibleLines_cons, hsame, ← visibleLines_cons]

/-- Decoding keeps the lines apart. -/
theorem pieces_utf8Text (bytes : List Byte) :
    pieces isBreak (utf8Text bytes) = (pieces isBreakByte bytes).map utf8Text := by
  have hclean : ∀ {xs : List Byte}, (∀ b ∈ xs, isBreakByte b = false) →
      ∀ c ∈ utf8Text xs, isBreak c = false := by
    intro xs hxs c hc
    by_contra hbreak
    rw [Bool.not_eq_false] at hbreak
    have hvalue : c = 10 ∨ c = 13 := by simpa [isBreak] using hbreak
    have hascii : c.val < 0x80 := by rcases hvalue with rfl | rfl <;> decide
    obtain ⟨b, hb, heq⟩ := mem_utf8Text hc hascii
    have hbyte := hxs b hb
    simp only [isBreakByte, Bool.or_eq_false_iff, beq_eq_false_iff_ne, ne_eq, Fin.ext_iff] at hbyte
    rcases hvalue with rfl | rfl
    · exact hbyte.1 heq
    · exact hbyte.2 heq
  induction hlength : bytes.length using Nat.strong_induction_on generalizing bytes with
  | _ n ih =>
      rcases clean_or_line isBreakByte bytes with hall | ⟨line, b, rest, rfl, hline, hb⟩
      · rw [pieces_of_clean hall, pieces_of_clean (hclean hall)]
        rfl
      · have hascii : b.val < 0x80 := by
          have hvalue : b = 10 ∨ b = 13 := by simpa [isBreakByte] using hb
          rcases hvalue with rfl | rfl <;> decide
        have hunit : isBreak (Fin.ofNat _ b.val) = true := by
          have hvalue : b = 10 ∨ b = 13 := by simpa [isBreakByte] using hb
          rcases hvalue with rfl | rfl <;> decide
        have hrest := ih rest.length (by rw [← hlength]; simp; omega) rest rfl
        rw [utf8Text_ascii line hascii, pieces_line (hclean hline) hunit, pieces_line hline hb,
          hrest]
        rfl

/-- `outputLines` of a chunk, line by line. -/
theorem outputLines_utf8Text (bytes : List Byte) :
    outputLines (utf8Text bytes) = emitted isBreakByte shownLine bytes := by
  rw [outputLines_eq, pieces_utf8Text, emitted]
  induction pieces isBreakByte bytes with
  | nil => rfl
  | cons line lines ih =>
      rw [List.map_cons, visibleLines_cons, ih, List.flatMap_cons]
      rfl

theorem shownLine_eq_nil_iff {line : List Byte} :
    shownLine line = [] ↔ cleanLine (utf8Text line) = [] := by
  rw [shownLine, visibleLines_singleton]
  split_ifs with h <;> simp [h]

theorem shows_shownLine : Shows shownLine where
  empty := rfl
  short line := by
    rw [shownLine, visibleLines_singleton]
    split_ifs <;> simp
  left front back hfront := by
    have hnil := shownLine_eq_nil_iff.mp hfront
    rcases utf8Text_append front back with heq | ⟨⟨units, hunits⟩, -⟩
    · rw [shownLine, shownLine, heq, visibleLines_singleton, visibleLines_singleton,
        cleanLine_append_left hnil]
    · rw [hunits] at hnil
      exact absurd hnil (cleanLine_replacement_ne_nil units []).1
  right front back hback := by
    have hnil := shownLine_eq_nil_iff.mp hback
    rcases utf8Text_append front back with heq | ⟨-, units, hunits⟩
    · rw [shownLine, shownLine, heq, visibleLines_singleton, visibleLines_singleton,
        cleanLine_append_right hnil]
    · rw [hunits] at hnil
      exact absurd hnil (cleanLine_replacement_ne_nil [] units).2

end OpticsAgent.Docker
