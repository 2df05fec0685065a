import Mathlib
import OpticsAgent.Ecma.JsonScan
import OpticsAgent.Lib.Placement
import OpticsAgent.Node.Utf8
import OpticsAgent.Service.ServiceLifecycle

/-!
`DockerEventService`: the docker events an agent hears of. The daemon writes
them to a stream, one JSON text to a line, and the stream comes in chunks that
need not end where the lines do. Each chunk is read as one JSON document, so an
event is heard of when a chunk has all of it and nothing else but blanks.
-/

namespace OpticsAgent.Docker

open OpticsAgent.Ecma OpticsAgent.Node OpticsAgent.Lib OpticsAgent.Service

/-! ## The handler -/

/-- A `DockerStatusEvent`, with the name and the exit code as the JSON has them. -/
structure StatusEvent where
  status : EventStatus
  containerName : JsValue
  timestamp : JsString
  action : JsString
  exitCode : Option JsValue := none

/-- `v === text`. -/
def isText (v : JsValue) (text : JsString) : Bool :=
  match v with
  | .str s => s == text
  | _ => false

/-- A Number times a rational, rounded once. -/
def scaled (q : ℚ) : Number → Number
  | .finite x => .roundSigned x.neg (x.value * q)
  | x => x

/-- `Math.floor(x)`. -/
def mathFloor : Number → Number
  | .finite x => .ofInt ⌊x.value⌋
  | x => x

/-- `new Date(x).toISOString()`. -/
def dateText (x : Number) : Except JsError JsString :=
  match x with
  | .finite x =>
      if |x.value| ≤ 8640000000000000 then .ok (toISOString (x.value.num.tdiv x.value.den))
      else .error ⟨js "RangeError", js "Invalid time value"⟩
  | _ => .error ⟨js "RangeError", js "Invalid time value"⟩

/-- The cases of the `switch` with a status of their own. -/
def actionStatus (action : JsString) : Option EventStatus :=
  if action = js "create" then some .starting
  else if action = js "start" then some .running
  else if action = js "restart" then some .restarting
  else if action = js "destroy" then some .removed
  else none

/-- The `timestamp` of an event. -/
def timestampText (now : ℤ) (timeNano time : JsValue) : Except JsError JsString :=
  if timeNano.truthy then dateText (mathFloor (scaled (1 / 1000000) timeNano.toNumber))
  else dateText (if time.truthy then scaled 1000 time.toNumber else .ofInt now)

def toStatusEvent (now : ℤ) (event : JsValue) : Except JsError (Option StatusEvent) := do
  let attributes ← (← event.member (js "Actor")).member (js "Attributes")
  let containerName := (← attributes.member (js "name")).orElse (.str [])
  let action ← event.member (js "Action")
  let timestamp ← timestampText now (← event.member (js "timeNano")) (← event.member (js "time"))
  match action with
  | .str action =>
      if action = js "die" ∨ action = js "stop" ∨ action = js "kill" then
        let exitCode := (← attributes.member (js "exitCode")).orElse (.str (js "0"))
        let status := if isText exitCode (js "0") then .stopped else .failed
        pure (some { status, containerName, timestamp, action, exitCode := some exitCode })
      else
        pure ((actionStatus action).map fun status => { status, containerName, timestamp, action })
  | _ => pure none

/-- What a parsed event comes to; `registered` tells whether there is a
`statusEmit`. -/
def onEvent (registered : Bool) (now : ℤ) (event : JsValue) :
    Except JsError (Option StatusEvent) := do
  let kind ← event.member (js "Type")
  if !isText kind (js "container") then pure none
  else if !registered then pure none
  else toStatusEvent now event

/-- What a chunk of the stream hands to `statusEmit`. Every error is swallowed. -/
def onData (registered : Bool) (now : ℤ) (chunk : List Byte) : Option StatusEvent :=
  match parseJson (utf8Text chunk) with
  | none => none
  | some event =>
      match onEvent registered now event with
      | .ok parsed => parsed
      | .error _ => none

/-- What a subscription hands to `statusEmit`: the chunks come with the times at
which they are handled. -/
def received (registered : Bool) (chunks : List (ℤ × List Byte)) : List StatusEvent :=
  chunks.filterMap fun chunk => onData registered chunk.1 chunk.2

/-! ## The lines of the stream -/

def IsScalar : JsValue → Prop
  | .arr _ | .obj _ => False
  | _ => True

/-- `Record<string, string>`. -/
def IsTextRecord (v : JsValue) : Prop :=
  ∃ record, v = .obj record ∧ ∀ p ∈ record, ∃ text, p.2 = .str text

/-- An actor has an id and attributes, and no type. -/
def IsActor (v : JsValue) : Prop :=
  ∃ actor, v = .obj actor ∧ js "Type" ∉ keys actor ∧ ∀ p ∈ actor, IsScalar p.2 ∨ IsTextRecord p.2

/-- An event as the daemon writes it: the JSON text of an object, from brace to
brace, in which the actor with its attributes is the one nested object, and
which tells its time. -/
structure EventLine where
  bytes : List Byte
  event : Props JsValue
  reads : parseJson (utf8Text bytes) = some (.obj event)
  opens : ∃ rest, bytes = 123 :: rest
  closes : ∃ front, bytes = front ++ [125]
  keysOnce : KeysOnce (utf8Text bytes)
  nested : ∀ p ∈ event, IsScalar p.2 ∨ IsActor p.2
  stamped : ∃ stamp, (ownValue event (js "timeNano") = some stamp ∨
    ownValue event (js "time") = some stamp) ∧ stamp.truthy = true

namespace EventLine

variable (l : EventLine)

def text : JsString := utf8Text l.bytes

/-- What `toStatusEvent` makes of the event, if it is one of a container and its
action is tracked. -/
def status : Option StatusEvent :=
  match onEvent true 0 (.obj l.event) with
  | .ok parsed => parsed
  | .error _ => none

end EventLine

/-- Newline-delimited JSON. -/
def wire (lines : List EventLine) : List Byte := lines.flatMap fun l => l.bytes ++ [10]

/-- The bytes of the chunks. -/
def stream (chunks : List (ℤ × List Byte)) : List Byte := chunks.flatMap Prod.snd

def isBlankByte (b : Byte) : Bool := [9, 10, 13, 32].contains b

/-- The line behind the `earlier` ones is in one chunk, which has besides it
only blanks. -/
def Alone (earlier : List EventLine) (l : EventLine) (chunks : List (ℤ × List Byte)) : Prop :=
  ∃ before chunk after lead trail, chunks = before ++ chunk :: after ∧
    chunk.2 = lead ++ l.bytes ++ trail ∧ stream before ++ lead = wire earlier ∧
    (∀ b ∈ lead, isBlankByte b = true) ∧ ∀ b ∈ trail, isBlankByte b = true

/-! ## Events and other values -/

section Values

variable {props : Props JsValue} {now : ℤ} {st : StatusEvent}

theorem member_obj (props : Props JsValue) (key : JsString) :
    (JsValue.obj props).member key = .ok ((ownValue props key).getD .undefined) := rfl

theorem ok_bind {α β : Type} (a : α) (f : α → Except JsError β) : Except.ok a >>= f = f a := rfl

/-- The time of handling shows in no event that tells its own. -/
theorem onEvent_stamped {stamp : JsValue} (h : ownValue props (js "timeNano") = some stamp ∨
    ownValue props (js "time") = some stamp) (hstamp : stamp.truthy = true) (now now' : ℤ) :
    onEvent true now (.obj props) = onEvent true now' (.obj props) := by
  have htime : timestampText now ((ownValue props (js "timeNano")).getD .undefined)
      ((ownValue props (js "time")).getD .undefined) =
        timestampText now' ((ownValue props (js "timeNano")).getD .undefined)
          ((ownValue props (js "time")).getD .undefined) := by
    unfold timestampText
    rcases h with h | h
    · simp [h, hstamp]
    · simp [h, hstamp]
  have hstatus : toStatusEvent now (.obj props) = toStatusEvent now' (.obj props) := by
    simp only [toStatusEvent, member_obj, ok_bind, htime]
  simp only [onEvent, hstatus]

theorem onEvent_typed (h : onEvent true now (.obj props) = .ok (some st)) :
    js "Type" ∈ keys props := by
  by_contra hkey
  rw [← ownValue_eq_none_iff] at hkey
  simp [onEvent, member_obj, ok_bind, hkey, isText] at h
  cases h

/-- An actor or its attributes. -/
def Nested (v : JsValue) : Prop := IsScalar v ∨ IsActor v ∨ IsTextRecord v

/-- Nothing in a record of texts has attributes. -/
theorem toStatusEvent_textRecord (h : IsTextRecord (.obj props)) (now : ℤ)
    (parsed : Option StatusEvent) : toStatusEvent now (.obj props) ≠ .ok parsed := by
  obtain ⟨record, hobj, htexts⟩ := h
  obtain rfl := JsValue.obj.inj hobj
  intro hparsed
  cases hactor : ownValue props (js "Actor") with
  | none =>
      simp only [toStatusEvent, ok_bind, hactor, Option.getD_none, JsValue.member]
        at hparsed
      cases hparsed
  | some actor =>
      obtain ⟨text, rfl⟩ := htexts _ (mem_of_ownValue hactor)
      simp only [toStatusEvent, ok_bind, hactor, Option.getD_some, JsValue.member]
        at hparsed
      cases hparsed

theorem onEvent_nested (h : Nested (.obj props)) :
    onEvent true now (.obj props) ≠ .ok (some st) := by
  intro hst
  rcases h with hscalar | ⟨actor, hobj, hkey, -⟩ | hrecord
  · exact hscalar
  · obtain rfl := JsValue.obj.inj hobj
    exact hkey (onEvent_typed hst)
  · simp only [onEvent, member_obj, ok_bind] at hst
    split_ifs at hst with hother hnone
    · cases hst
    · cases hst
    · exact toStatusEvent_textRecord hrecord now _ hst

end Values

/-! ## The text of the stream -/

theorem utf8Text_brace (xs : List Byte) : utf8Text (123 :: xs) = 123 :: utf8Text xs :=
  utf8Text_ascii [] (by decide) xs

theorem isBlankByte_eq {b : Byte} {u : CodeUnit} (h : b.val = u.val) :
    isBlankByte b = isJsonSpace u := by
  have hunit (n : ℕ) (hn : n < 256) : b = Fin.ofNat 256 n ↔ u = Fin.ofNat 65536 n := by
    rw [Fin.ext_iff, Fin.ext_iff, h, Fin.val_ofNat, Fin.val_ofNat, Nat.mod_eq_of_lt hn,
      Nat.mod_eq_of_lt (by omega)]
  have hiff : (b = 9 ∨ b = 10 ∨ b = 13 ∨ b = 32) ↔ u = 9 ∨ u = 10 ∨ u = 13 ∨ u = 32 :=
    or_congr (hunit 9 (by decide)) (or_congr (hunit 10 (by decide))
      (or_congr (hunit 13 (by decide)) (hunit 32 (by decide))))
  rw [Bool.eq_iff_iff]
  simpa [isBlankByte, isJsonSpace, or_assoc] using hiff

theorem blank_of_spaces {xs : List Byte} {spaces more : JsString}
    (h : utf8Text xs = spaces ++ more) (hspaces : Spaces spaces) :
    ∃ lead rest, xs = lead ++ rest ∧ utf8Text rest = more ∧ utf8Text lead = spaces ∧
      ∀ b ∈ lead, isBlankByte b = true := by
  induction spaces generalizing xs with
  | nil => exact ⟨[], xs, rfl, h, rfl, by simp⟩
  | cons u spaces ih =>
      obtain ⟨hu, hrest⟩ := List.forall_mem_cons.mp hspaces
      have hcode : u = 9 ∨ u = 10 ∨ u = 13 ∨ u = 32 := by
        simpa [isJsonSpace, or_assoc] using hu
      have hascii : u.val < 0x80 := by
        rcases hcode with rfl | rfl | rfl | rfl <;> decide
      obtain ⟨b, xs', rfl, hb, hmore⟩ := utf8Text_eq_cons h hascii
      obtain ⟨lead, rest, rfl, htext, hlead, hblank⟩ := ih hmore hrest
      refine ⟨b :: lead, rest, rfl, htext, ?_, List.forall_mem_cons.mpr ⟨?_, hblank⟩⟩
      · rw [show utf8Text (b :: lead) = Fin.ofNat _ b.val :: utf8Text lead from
          utf8Text_ascii [] (by omega) lead, hlead]
        exact congrArg (· :: spaces) (Fin.ext (by simp [hb]))
      · rwa [isBlankByte_eq hb]

theorem spaces_of_blank {xs : List Byte} (h : ∀ b ∈ xs, isBlankByte b = true) (ys : List Byte) :
    ∃ spaces, utf8Text (xs ++ ys) = spaces ++ utf8Text ys ∧ Spaces spaces := by
  induction xs with
  | nil => exact ⟨[], rfl, fun _ hc => absurd hc List.not_mem_nil⟩
  | cons b xs ih =>
      obtain ⟨hb, hxs⟩ := List.forall_mem_cons.mp h
      obtain ⟨spaces, hread, hspaces⟩ := ih hxs
      have hcode : b = 9 ∨ b = 10 ∨ b = 13 ∨ b = 32 := by
        simpa [isBlankByte] using hb
      have hascii : b.val < 0x80 := by
        rcases hcode with rfl | rfl | rfl | rfl <;> decide
      have hval : b.val = (Fin.ofNat 65536 b.val).val := (Nat.mod_eq_of_lt (by omega)).symm
      refine ⟨Fin.ofNat _ b.val :: spaces, ?_, List.forall_mem_cons.mpr ⟨?_, hspaces⟩⟩
      · rw [List.cons_append, List.cons_append, ← hread]
        exact utf8Text_ascii [] hascii (xs ++ ys)
      · rwa [← isBlankByte_eq hval]

namespace EventLine

variable (l : EventLine)

theorem text_opens : ∃ rest, l.text = 123 :: utf8Text rest ∧ l.bytes = 123 :: rest := by
  obtain ⟨rest, hrest⟩ := l.opens
  refine ⟨rest, ?_, hrest⟩
  rw [text, hrest, utf8Text_brace]

theorem text_closes : ∃ front, l.text = front ++ [125] := by
  obtain ⟨front, hfront⟩ := l.closes
  refine ⟨utf8Text front, ?_⟩
  rw [text, hfront]
  exact utf8Text_ascii front (by decide) []

/-- The event comes to the same whenever it is handled. -/
theorem status_of_onEvent {now : ℤ} {parsed : Option StatusEvent}
    (h : onEvent true now (.obj l.event) = .ok parsed) : l.status = parsed := by
  obtain ⟨stamp, hstamp, htruthy⟩ := l.stamped
  rw [onEvent_stamped hstamp htruthy now 0] at h
  rw [status, h]

theorem scan_text : scan .plain l.text = some .plain := scan_parseJson l.reads

/-- The reader takes the whole text. -/
theorem parse_text : parseValue (l.text.length + 1) l.text = some (.obj l.event, []) := by
  obtain ⟨rest, hread, hspaces⟩ := parseJson_eq_some.mp l.reads
  obtain ⟨used, hused, -⟩ := (parse_inside _).1 _ _ _ hread
  obtain ⟨front, hfront⟩ := l.text_closes
  rcases List.eq_nil_or_concat rest with rfl | ⟨more, c, rfl⟩
  · exact hread
  · rw [List.concat_eq_append] at hused hspaces
    have hlast : (125 : CodeUnit) = c := by
      rw [← List.append_assoc] at hused
      have hends := (List.append_inj' (hfront.symm.trans hused) rfl).2
      exact (List.cons.inj hends).1
    subst hlast
    exact absurd (hspaces 125 (by simp)) (by decide)

end EventLine

theorem scan_wire (lines : List EventLine) :
    scan .plain (utf8Text (wire lines)) = some .plain := by
  induction lines with
  | nil => rfl
  | cons l lines ih =>
      have hline : utf8Text (wire (l :: lines)) = l.text ++ 10 :: utf8Text (wire lines) := by
        rw [wire, List.flatMap_cons, List.append_assoc]
        exact utf8Text_ascii l.bytes (by decide) _
      rw [hline, scan_append_of_eq l.scan_text]
      exact ih

/-! ## Where a chunk lies -/

section Chunks

variable {lines : List EventLine} {chunk pre post : List Byte} {now : ℤ} {st : StatusEvent}

theorem onData_eq_some : onData true now chunk = some st ↔
    ∃ props, parseJson (utf8Text chunk) = some (.obj props) ∧
      onEvent true now (.obj props) = .ok (some st) := by
  unfold onData
  cases hparse : parseJson (utf8Text chunk) with
  | none => simp
  | some v =>
      dsimp only
      constructor
      · intro h
        cases hevent : onEvent true now v with
        | error e => simp [hevent] at h
        | ok parsed =>
            obtain rfl : parsed = some st := by simpa [hevent] using h
            cases v with
            | obj props => exact ⟨props, rfl, hevent⟩
            | _ => simp [onEvent, JsValue.member, isText, ok_bind] at hevent; cases hevent
      · rintro ⟨props, hobj, hevent⟩
        obtain rfl := Option.some.inj hobj
        rw [hevent]

/-- A brace of the stream stands in one of the lines. -/
theorem exists_line {tail : List Byte} (h : pre ++ 123 :: tail = wire lines) :
    ∃ earlier l later front back, lines = earlier ++ l :: later ∧ pre = wire earlier ++ front ∧
      l.bytes = front ++ 123 :: back ∧ tail = back ++ 10 :: wire later := by
  induction lines generalizing pre with
  | nil => simp [wire] at h
  | cons l lines ih =>
      have hwire : pre ++ 123 :: tail = l.bytes ++ (10 :: wire lines) := by
        rw [h, wire, List.flatMap_cons, List.append_assoc]
        rfl
      rcases List.append_eq_append_iff.mp hwire with ⟨more, hbytes, hmore⟩ | ⟨more, rfl, hmore⟩
      · cases more with
        | nil => exact absurd (List.cons.inj hmore).1 (by decide)
        | cons b more =>
            obtain ⟨rfl, rfl⟩ := List.cons.inj hmore
            exact ⟨[], l, lines, pre, more, rfl, rfl, hbytes, rfl⟩
      · cases more with
        | nil => exact absurd (List.cons.inj hmore).1 (by decide)
        | cons b more =>
            obtain ⟨rfl, hrest⟩ := List.cons.inj hmore
            obtain ⟨earlier, l', later, front, back, rfl, rfl, hbytes, htail⟩ := ih hrest.symm
            refine ⟨l :: earlier, l', later, front, back, rfl, ?_, hbytes, htail⟩
            simp [wire]

/-- A chunk that is read as an object starts with a brace behind blanks, and what
follows it in the stream is decoded on its own. -/
theorem exists_brace {props : Props JsValue} (h : parseJson (utf8Text chunk) = some (.obj props)) :
    ∃ lead body fuel rest, chunk = lead ++ 123 :: body ∧
      (∀ b ∈ lead, isBlankByte b = true) ∧
      parseValue fuel (123 :: utf8Text body) = some (.obj props, rest) ∧ Spaces rest ∧
      ∀ ys, utf8Text (123 :: body ++ ys) = 123 :: utf8Text body ++ utf8Text ys := by
  obtain ⟨spaces, back, rest, htext, hspaces, hread, hrest⟩ := parseJson_object h
  obtain ⟨lead, more, rfl, hmore, -, hblank⟩ := blank_of_spaces htext hspaces
  obtain ⟨b, body, rfl, hb, hbody⟩ := utf8Text_eq_cons hmore (by decide)
  obtain rfl : b = 123 := Fin.ext hb
  refine ⟨lead, body, _, rest, rfl, hblank, by rw [hbody]; exact hread, hrest, fun ys => ?_⟩
  have hscan : scan .plain (utf8Text (123 :: body)) = some .plain := by
    have hall := scan_parseJson h
    rw [htext, scan_append_of_eq
      (scan_plain_structural fun c hc => structural_of_space (hspaces c hc))] at hall
    rwa [utf8Text_brace, hbody]
  rcases List.eq_nil_or_concat (utf8Text (123 :: body)) with hnil | ⟨front, c, hends⟩
  · simp [utf8Text_brace] at hnil
  · rw [List.concat_eq_append] at hends
    rw [hends] at hscan
    rw [utf8Text_append_of_ends hends (scan_last hscan) ys, utf8Text_brace]

variable {l : EventLine} {later : List EventLine} {front back : List Byte} {fuel : ℕ}
  {props : Props JsValue} {body rest after : JsString}

theorem EventLine.text_brace (hbytes : l.bytes = front ++ 123 :: back) :
    l.text = utf8Text front ++ 123 :: utf8Text back := by
  rw [EventLine.text, hbytes]
  exact utf8Text_ascii front (by decide) back

/-- An object with a type is read from outside the strings of the line. -/
theorem scan_front (hbytes : l.bytes = front ++ 123 :: back)
    (hread : parseValue fuel (123 :: body) = some (.obj props, rest))
    (hsame : 123 :: body ++ after = 123 :: utf8Text back ++ 10 :: utf8Text (wire later))
    (htype : js "Type" ∈ keys props) : scan .plain (utf8Text front) = some .plain := by
  have hline := l.scan_text
  rw [EventLine.text_brace hbytes, scan_append] at hline
  obtain ⟨m, hm, hback⟩ := Option.bind_eq_some_iff.mp hline
  rw [hm]
  cases m with
  | plain => rfl
  | escaped =>
      have hbrace : Mode.next .escaped 123 = none := by decide
      simp [scan, hbrace] at hback
  | quoted =>
      have hall : scan .quoted (123 :: body ++ after) = some .plain := by
        rw [hsame, scan_append_of_eq hback]
        exact scan_wire later
      rw [scan_append] at hall
      obtain ⟨m', hm', -⟩ := Option.bind_eq_some_iff.mp hall
      obtain ⟨p, hp, hkey⟩ := List.mem_map.mp htype
      have hunit := keysStructural_of_quoted hread hm' p hp 84 (by rw [hkey]; decide)
      exact absurd hunit (by decide)

/-- Behind the first brace of a line nothing is read that is reported. -/
theorem front_eq_nil (hbytes : l.bytes = front ++ 123 :: back)
    (hread : parseValue fuel (123 :: body) = some (.obj props, rest))
    (hsame : 123 :: body ++ after = 123 :: utf8Text back ++ 10 :: utf8Text (wire later))
    (hevent : onEvent true now (.obj props) = .ok (some st)) : front = [] := by
  have hscan := scan_front hbytes hread hsame (onEvent_typed hevent)
  cases front with
  | nil => rfl
  | cons b inner =>
      exfalso
      obtain ⟨opened, -, hopened⟩ := l.text_opens
      obtain ⟨rfl, -⟩ := List.cons.inj (hbytes.symm.trans hopened)
      have htext := EventLine.text_brace hbytes
      rw [utf8Text_brace] at hscan htext
      have hnested : ValueAt Nested (123 :: utf8Text back) := by
        apply readable_inner _ _ l.keysOnce l.reads _ htext hscan
        · rintro items (h | ⟨_, h, -⟩ | ⟨_, h, -⟩)
          · exact absurd h id
          · cases h
          · cases h
        · rintro props (h | ⟨_, h, -, hall⟩ | ⟨_, h, hall⟩) p hp
          · exact absurd h id
          · obtain rfl := JsValue.obj.inj h
            exact (hall p hp).imp_right .inr
          · obtain rfl := JsValue.obj.inj h
            obtain ⟨text, htext⟩ := hall p hp
            exact .inl (htext ▸ trivial)
        · exact fun p hp => (l.nested p hp).imp_right .inl
      obtain ⟨fuel', v, rest', hinner, hv⟩ := hnested
      obtain ⟨props', rfl⟩ := parseValue_brace hinner
      have hfirst := (parse_append _).1 _ _ _ hread after (by rintro ⟨_, h⟩; cases h)
      have hsecond := (parse_append _).1 _ _ _ hinner (10 :: utf8Text (wire later))
        (by rintro ⟨_, h⟩; cases h)
      rw [hsame] at hfirst
      obtain ⟨hobj, -⟩ := parseValue_unique hfirst hsecond
      rw [hobj] at hevent
      exact onEvent_nested hv hevent

/-- A chunk that is heard of has one line and blanks. -/
theorem exists_alone (hwire : pre ++ (chunk ++ post) = wire lines)
    (h : onData true now chunk = some st) :
    ∃ earlier l later lead trail, lines = earlier ++ l :: later ∧
      chunk = lead ++ l.bytes ++ trail ∧ pre ++ lead = wire earlier ∧
      (∀ b ∈ lead, isBlankByte b = true) ∧ (∀ b ∈ trail, isBlankByte b = true) ∧
      l.status = some st := by
  obtain ⟨props, hparse, hevent⟩ := onData_eq_some.mp h
  obtain ⟨lead, body, fuel, rest, rfl, hlead, hread, hrest, hcut⟩ := exists_brace hparse
  have hbrace : pre ++ lead ++ 123 :: (body ++ post) = wire lines := by
    rw [← hwire]
    simp
  obtain ⟨earlier, l, later, front, back, rfl, hpre, hbytes, htail⟩ := exists_line hbrace
  have hsame : 123 :: utf8Text body ++ utf8Text post =
      123 :: utf8Text back ++ 10 :: utf8Text (wire later) := by
    rw [← hcut post, List.cons_append, htail]
    have hline := utf8Text_ascii (123 :: back) (b := 10) (by decide) (wire later)
    rwa [utf8Text_brace] at hline
  obtain rfl := front_eq_nil hbytes hread hsame hevent
  rw [List.append_nil] at hpre
  have htext : l.text = 123 :: utf8Text back := EventLine.text_brace hbytes
  have hfirst := (parse_append _).1 _ _ _ hread (utf8Text post) (by rintro ⟨_, h⟩; cases h)
  have hsecond := (parse_append _).1 _ _ _ l.parse_text (10 :: utf8Text (wire later))
    (by rintro ⟨_, h⟩; cases h)
  rw [hsame, ← htext] at hfirst
  obtain ⟨hobj, hafter⟩ := parseValue_unique hfirst hsecond
  obtain rfl := JsValue.obj.inj hobj
  have hbody : 123 :: utf8Text body = l.text ++ rest := by
    have hwhole : 123 :: utf8Text body ++ utf8Text post = l.text ++ rest ++ utf8Text post := by
      rw [hsame, ← htext, List.append_assoc, hafter]
      rfl
    exact List.append_cancel_right hwhole
  have hstatus : l.status = some st := l.status_of_onEvent hevent
  -- The line ends where the object does, and the chunk a few blanks later.
  rcases List.append_eq_append_iff.mp htail with ⟨more, rfl, -⟩ | ⟨trail, rfl, -⟩
  · have hline : l.text = l.text ++ (rest ++ utf8Text more) := by
      calc
        l.text = utf8Text (123 :: body ++ more) := congrArg utf8Text hbytes
        _ = l.text ++ (rest ++ utf8Text more) := by rw [hcut more, hbody, List.append_assoc]
    obtain ⟨-, hmore⟩ := List.append_eq_nil_iff.mp (List.self_eq_append_right.mp hline)
    obtain rfl := utf8Text_eq_nil hmore
    rw [List.append_nil] at hbytes
    exact ⟨earlier, l, later, lead, [], rfl, by simp [hbytes], hpre, hlead, by simp, hstatus⟩
  · have htrail : utf8Text trail = rest ++ [] := by
      obtain ⟨ends, hends⟩ := l.text_closes
      have hcutLine := utf8Text_append_of_ends hends (by decide) trail
      have hline : l.text ++ utf8Text trail = l.text ++ rest := by
        rw [← hbody, ← utf8Text_brace, EventLine.text, ← hcutLine, hbytes]
        rfl
      rw [List.append_nil]
      exact List.append_cancel_left hline
    obtain ⟨blanks, none, rfl, hnone, -, hblank⟩ := blank_of_spaces htrail hrest
    obtain rfl := utf8Text_eq_nil hnone
    rw [List.append_nil]
    exact ⟨earlier, l, later, lead, blanks, rfl, by simp [hbytes], hpre, hlead, hblank, hstatus⟩

/-- A line among blanks is heard of. -/
theorem onData_padded (l : EventLine) (now : ℤ) {lead trail : List Byte}
    (hlead : ∀ b ∈ lead, isBlankByte b = true) (htrail : ∀ b ∈ trail, isBlankByte b = true) :
    onData true now (lead ++ l.bytes ++ trail) = l.status := by
  obtain ⟨spaces, hfront, hspaces⟩ := spaces_of_blank hlead (l.bytes ++ trail)
  obtain ⟨spaces', hback, hspaces'⟩ := spaces_of_blank htrail []
  obtain ⟨ends, hends⟩ := l.text_closes
  obtain ⟨opened, htext, -⟩ := l.text_opens
  have hreads : parseJson (123 :: utf8Text opened) = some (.obj l.event) := htext ▸ l.reads
  have hchunk : utf8Text (lead ++ l.bytes ++ trail) =
      spaces ++ (123 :: utf8Text opened ++ spaces') := by
    have htail : utf8Text trail = spaces' := by
      rw [List.append_nil] at hback
      rw [hback]
      exact List.append_nil spaces'
    rw [List.append_assoc, hfront, utf8Text_append_of_ends hends (by decide), htail, ← htext]
    rfl
  have hparse := parseJson_spaces hreads hspaces hspaces'
  unfold onData
  rw [hchunk, hparse]
  dsimp only
  cases hevent : onEvent true now (.obj l.event) with
  | ok parsed => exact (l.status_of_onEvent hevent).symm
  | error e =>
      obtain ⟨stamp, hstamp, htruthy⟩ := l.stamped
      rw [onEvent_stamped hstamp htruthy now 0] at hevent
      rw [EventLine.status, hevent]

/-! ## What is heard of -/

def chunkLayout : Layout (ℤ × List Byte) StatusEvent where
  size chunk := chunk.2.length
  shift chunk := (chunk.2.takeWhile isBlankByte).length
  give chunk := onData true chunk.1 chunk.2
  shift_lt := by
    intro chunk st h
    obtain ⟨props, hparse, -⟩ := onData_eq_some.mp h
    obtain ⟨lead, body, fuel, rest, hchunk, hlead, -⟩ := exists_brace hparse
    rw [hchunk, List.takeWhile_append_of_pos hlead, List.takeWhile_cons_of_neg (by decide)]
    simp

def lineLayout : Layout EventLine StatusEvent where
  size l := l.bytes.length + 1
  shift _ := 0
  give l := l.status
  shift_lt := fun _ _ _ => Nat.succ_pos _

theorem room_stream (chunks : List (ℤ × List Byte)) :
    chunkLayout.room chunks = (stream chunks).length :=
  (List.length_flatMap ..).symm

theorem room_wire (lines : List EventLine) : lineLayout.room lines = (wire lines).length := by
  rw [wire, List.length_flatMap, Layout.room]
  congr 1
  exact List.map_congr_left fun l _ => by simp [lineLayout]

theorem stream_split {chunks before after : List (ℤ × List Byte)} {heard : ℤ × List Byte}
    (hcut : stream chunks = wire lines) (hchunks : chunks = before ++ heard :: after) :
    stream before ++ (heard.2 ++ stream after) = wire lines := by
  rw [← hcut, hchunks, stream, stream, stream, List.flatMap_append, List.flatMap_cons]

theorem shift_chunk {heard : ℤ × List Byte} {lead trail : List Byte}
    (hchunk : heard.2 = lead ++ l.bytes ++ trail) (hlead : ∀ b ∈ lead, isBlankByte b = true) :
    chunkLayout.shift heard = lead.length := by
  obtain ⟨opened, -, hopened⟩ := l.text_opens
  change (heard.2.takeWhile isBlankByte).length = _
  rw [hchunk, hopened, List.append_assoc, List.takeWhile_append_of_pos hlead, List.cons_append,
    List.takeWhile_cons_of_neg (by decide), List.append_nil]

/-- What is heard of is in the stream, and where its line is. -/
theorem heard_mem {chunks : List (ℤ × List Byte)} (hcut : stream chunks = wire lines) :
    ∀ e ∈ chunkLayout.placed 0 chunks, e ∈ lineLayout.placed 0 lines := by
  rintro ⟨place, st⟩ he
  obtain ⟨before, heard, after, hchunks, hgive, hplace⟩ := Layout.mem_placed.mp he
  obtain ⟨earlier, l, later, lead, trail, hlines, hchunk, hpre, hlead, -, hstatus⟩ :=
    exists_alone (stream_split hcut hchunks) hgive
  refine Layout.mem_placed.mpr ⟨earlier, l, later, hlines, hstatus, ?_⟩
  have hshift : lineLayout.shift l = 0 := rfl
  have hlength := congrArg List.length hpre
  rw [List.length_append, ← room_stream, ← room_wire, ← shift_chunk hchunk hlead] at hlength
  dsimp only at hplace ⊢
  omega

/-- A line is found at its place. -/
theorem split_unique {earlier earlier' later later' : List EventLine} {l l' : EventLine}
    (h : earlier ++ l :: later = earlier' ++ l' :: later')
    (hplace : (wire earlier).length = (wire earlier').length) :
    earlier = earlier' ∧ l = l' := by
  have hmore : ∀ {front more : List EventLine} {x : EventLine},
      (wire (front ++ x :: more)).length ≠ (wire front).length := by
    intro front more x
    simp only [wire, List.flatMap_append, List.flatMap_cons, List.length_append,
      List.length_singleton]
    omega
  rcases List.append_eq_append_iff.mp h with ⟨more, rfl, hsplit⟩ | ⟨more, rfl, hsplit⟩
  · cases more with
    | nil => exact ⟨(List.append_nil _).symm, (List.cons.inj hsplit).1⟩
    | cons x more => exact absurd hplace.symm hmore
  · cases more with
    | nil => exact ⟨List.append_nil _, (List.cons.inj hsplit).1.symm⟩
    | cons x more => exact absurd hplace hmore

theorem alone_iff_heard {chunks : List (ℤ × List Byte)} {earlier later : List EventLine}
    {l : EventLine} (hcut : stream chunks = wire lines) (hlines : lines = earlier ++ l :: later)
    (hstatus : l.status = some st) :
    ((wire earlier).length, st) ∈ chunkLayout.placed 0 chunks ↔ Alone earlier l chunks := by
  constructor
  · intro he
    obtain ⟨before, heard, after, hchunks, hgive, hplace⟩ := Layout.mem_placed.mp he
    obtain ⟨earlier', l', later', lead, trail, hlines', hchunk, hpre, hlead, htrail, -⟩ :=
      exists_alone (stream_split hcut hchunks) hgive
    have hlength : (wire earlier).length = (wire earlier').length := by
      dsimp only at hplace
      rw [hplace, shift_chunk hchunk hlead, room_stream, ← hpre, List.length_append, Nat.zero_add]
    obtain ⟨rfl, rfl⟩ := split_unique (hlines.symm.trans hlines') hlength
    exact ⟨before, heard, after, lead, trail, hchunks, hchunk, hpre, hlead, htrail⟩
  · rintro ⟨before, heard, after, lead, trail, hchunks, hchunk, hpre, hlead, htrail⟩
    refine Layout.mem_placed.mpr ⟨before, heard, after, hchunks, ?_, ?_⟩
    · change onData true heard.1 heard.2 = some st
      rw [hchunk, onData_padded l heard.1 hlead htrail, hstatus]
    · dsimp only
      rw [shift_chunk hchunk hlead, room_stream, ← hpre, List.length_append, Nat.zero_add]

end Chunks

/-- Every event the service tracks is heard of once and in order exactly when
each of them has a chunk to itself. -/
theorem received_iff (lines : List EventLine) (chunks : List (ℤ × List Byte))
    (hcut : stream chunks = wire lines) :
    received true chunks = lines.filterMap EventLine.status ↔
      ∀ earlier l later, lines = earlier ++ l :: later →
        l.status.isSome → Alone earlier l chunks := by
  have hgiven : received true chunks = lines.filterMap EventLine.status ↔
      (chunkLayout.placed 0 chunks).map Prod.snd = (lineLayout.placed 0 lines).map Prod.snd := by
    rw [Layout.placed_snd, Layout.placed_snd]
    rfl
  rw [hgiven, map_snd_eq_iff (Layout.placed_pairwise 0 chunks) (Layout.placed_pairwise 0 lines)
    (heard_mem hcut)]
  constructor
  · intro hall earlier l later hlines htracked
    obtain ⟨st, hstatus⟩ := Option.isSome_iff_exists.mp htracked
    apply (alone_iff_heard hcut hlines hstatus).mp
    apply hall
    refine Layout.mem_placed.mpr ⟨earlier, l, later, hlines, hstatus, ?_⟩
    rw [room_wire]
    exact (Nat.zero_add _).symm
  · rintro hall ⟨place, st⟩ he
    obtain ⟨earlier, l, later, hlines, hstatus, hplace⟩ := Layout.mem_placed.mp he
    have halone := hall earlier l later hlines (Option.isSome_of_eq_some hstatus)
    have hheard := (alone_iff_heard hcut hlines hstatus).mpr halone
    have hsame : place = (wire earlier).length := by
      rw [← room_wire]
      exact hplace.trans (Nat.zero_add _)
    rwa [hsame]

/-- A chunk for each line. -/
def oneEach (lines : List EventLine) : List (ℤ × List Byte) := lines.map fun l => (0, wire [l])

theorem stream_oneEach (lines : List EventLine) : stream (oneEach lines) = wire lines := by
  rw [stream, oneEach, List.flatMap_map]
  exact List.flatMap_congr fun l _ => by simp [wire]

theorem alone_oneEach {lines earlier later : List EventLine} {l : EventLine}
    (h : lines = earlier ++ l :: later) : Alone earlier l (oneEach lines) := by
  refine ⟨oneEach earlier, (0, wire [l]), oneEach later, [], [10], ?_, ?_, ?_, by simp,
    by simp [isBlankByte]⟩
  · rw [h, oneEach, List.map_append, List.map_cons]
    rfl
  · simp [wire]
  · rw [List.append_nil, stream_oneEach]

/-! ## A container that is created and started -/

def eventDoc (action : JsString) : Json :=
  .obj [(js "Type", .str (js "container")), (js "Action", .str action),
    (js "Actor", .obj [(js "Attributes", .obj [(js "name", .str (js "web"))])]),
    (js "time", .num (Double.natural 1700000000 (by norm_num)))]

theorem eventDoc_wellFormed (action : JsString) : (eventDoc action).WellFormed := by
  have hkeys : [js "Type", js "Action", js "Actor", js "time"].Pairwise
      fun k k' => k ≠ k' ∧ precedes k k' = true := by decide +kernel
  simp only [eventDoc, Json.WellFormed, Json.WellFormedProps, and_true, true_and]
  exact ⟨List.Pairwise.of_map Prod.fst (fun _ _ h => h) hkeys, List.pairwise_singleton ..,
    List.pairwise_singleton ..⟩

/-- What is evaluated of the text of a sample. -/
structure EventText (text : JsString) : Prop where
  ascii : (text.all fun c => decide (c.val < 0x80)) = true
  opens : (asciiBytes text).head? = some 123
  closes : (asciiBytes text).getLast? = some 125
  keys : checkKeys text.length .plain text = true

theorem EventText.decoded {text : JsString} (h : EventText text) :
    utf8Text (asciiBytes text) = text := by
  have hall : ∀ c ∈ text, c.val < 0x80 := by simpa using h.ascii
  have hread := utf8Text_asciiBytes hall []
  rw [List.append_nil] at hread
  exact hread.trans (List.append_nil text)

theorem isActor_web : IsActor (.obj [(js "Attributes", .obj [(js "name", .str (js "web"))])]) := by
  have hname : IsTextRecord (.obj [(js "name", .str (js "web"))]) :=
    ⟨_, rfl, List.forall_mem_singleton.mpr ⟨_, rfl⟩⟩
  exact ⟨_, rfl, by decide +kernel, List.forall_mem_singleton.mpr (.inr hname)⟩

theorem eventTime_truthy : JsValue.truthy (.num (.finite
    (Double.natural 1700000000 (by norm_num)).clearNegZero)) = true := by
  decide +kernel

def eventLine (action : JsString) (h : EventText (eventDoc action).print) : EventLine where
  bytes := asciiBytes (eventDoc action).print
  event := [(js "Type", .str (js "container")), (js "Action", .str action),
    (js "Actor", .obj [(js "Attributes", .obj [(js "name", .str (js "web"))])]),
    (js "time", .num (.finite (Double.natural 1700000000 (by norm_num)).clearNegZero))]
  reads := by
    rw [h.decoded, Ecma.parseJson_print _ (eventDoc_wellFormed action)]
    simp [eventDoc, Json.parsed, Json.clearNegZero, Json.toValue, Json.clearProps,
      Json.propsToValue]
  opens := by
    obtain ⟨rest, hrest⟩ := List.head?_eq_some_iff.mp h.opens
    exact ⟨rest, hrest⟩
  closes := List.getLast?_eq_some_iff.mp h.closes
  keysOnce := by
    rw [h.decoded]
    exact keysOnce_of_checkKeys h.keys
  nested := by
    simp only [List.forall_mem_cons]
    exact ⟨.inl trivial, .inl trivial, .inr isActor_web, .inl trivial, by simp⟩
  stamped := ⟨_, .inr (by simp [ownValue]; rfl), eventTime_truthy⟩

def createdLine : EventLine :=
  eventLine (js "create")
    ⟨by decide +kernel, by decide +kernel, by decide +kernel, by decide +kernel⟩

def startedLine : EventLine :=
  eventLine (js "start")
    ⟨by decide +kernel, by decide +kernel, by decide +kernel, by decide +kernel⟩

/-- Two chunks, of a line each: both events are heard of. -/
theorem received_iff_sample :
    received true (oneEach [createdLine, startedLine]) =
      [createdLine, startedLine].filterMap EventLine.status :=
  (received_iff _ _ (stream_oneEach _)).mpr fun _ _ _ hlines _ => alone_oneEach hlines

/-- In one chunk, neither is. -/
theorem received_fails :
    stream [(0, wire [createdLine, startedLine])] = wire [createdLine, startedLine] ∧
      received true [(0, wire [createdLine, startedLine])] = [] ∧
      [createdLine, startedLine].filterMap EventLine.status ≠ [] := by
  have hparse : (parseJson (utf8Text (wire [createdLine, startedLine]))).isNone = true := by
    decide +kernel
  have htracked : createdLine.status.isSome = true := by decide +kernel
  obtain ⟨st, hst⟩ := Option.isSome_iff_exists.mp htracked
  refine ⟨by simp [stream], ?_, ?_⟩
  · simp [received, onData, Option.isNone_iff_eq_none.mp hparse]
  · simp [hst]

end OpticsAgent.Docker
