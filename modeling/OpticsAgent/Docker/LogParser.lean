import Mathlib
import OpticsAgent.Docker.Output
import OpticsAgent.Ecma.Date

/-!
The log line parser, `docker-log.parser.ts`. A line may name its container in
front of a bar, as compose prints it, and starts with a timestamp of docker's.
The regular expressions are read as what they match: in each of them the white
space and digit runs are followed by something else, so a run is taken whole.
-/

namespace OpticsAgent.Docker

open OpticsAgent.Ecma

/-- `throw new RangeError(message)`. -/
structure RangeError where
  message : JsString
deriving DecidableEq

inductive LogSource where
  | agent
  | runtime
deriving DecidableEq

inductive LogStream where
  | deploy
  | lifecycle
  | runtime
deriving DecidableEq

structure DockerLogEntry where
  line : JsString
  timestamp : Option JsString := none
  source : Option LogSource := none
  stream : Option LogStream := none
  containerName : Option JsString := none
  composeService : Option JsString := none
  stderr : Option Bool := none
deriving DecidableEq

/-! ## Timestamps -/

/-- `\d`. -/
def isDigit (c : CodeUnit) : Bool := (digit? c).isSome

/-- The units `.` does not match. -/
def isLineTerminator (c : CodeUnit) : Bool := c == 10 || c == 13 || c == 0x2028 || c == 0x2029

/-- `(.*)$`. -/
def takeRest (s : JsString) : Option JsString := if s.any isLineTerminator then none else some s

/-- One unit for each unit of the shape, where `d` stands for a digit. -/
def takeShape : JsString → JsString → Option (JsString × JsString)
  | [], s => some ([], s)
  | _ :: _, [] => none
  | p :: shape, c :: s =>
      if (if p = 100 then isDigit c else c == p) then
        (takeShape shape s).map fun r => (c :: r.1, r.2)
      else none

/-- `(\.\d+)?`. -/
def takeFraction (s : JsString) : JsString × JsString :=
  match s with
  | 46 :: rest =>
      if rest.takeWhile isDigit = [] then ([], s)
      else (46 :: rest.takeWhile isDigit, rest.dropWhile isDigit)
  | _ => ([], s)

/-- `(Z|[+-]\d{2}:\d{2})`. -/
def takeZone (s : JsString) : Option (JsString × JsString) :=
  match s with
  | 90 :: rest => some ([90], rest)
  | sign :: rest =>
      if sign = 43 ∨ sign = 45 then
        (takeShape (js "dd:dd") rest).map fun r => (sign :: r.1, r.2)
      else none
  | [] => none

/-- The groups of `timestampPattern`; a fraction that is missing is empty. -/
structure Stamp where
  base : JsString
  fraction : JsString
  zone : JsString

def takeStamp (s : JsString) : Option (Stamp × JsString) := do
  let (base, afterBase) ← takeShape (js "dddd-dd-ddTdd:dd:dd") s
  let (fraction, afterFraction) := takeFraction afterBase
  let (zone, rest) ← takeZone afterFraction
  return (⟨base, fraction, zone⟩, rest)

/-- `${timestampPattern}(?:\s+(.*))?$`. -/
def takeMessage (s : JsString) : Option (Stamp × JsString) := do
  let (stamp, rest) ← takeStamp s
  if rest = [] then return (stamp, [])
  else if rest.takeWhile isTrimmed = [] then none
  else return (stamp, ← takeRest (rest.dropWhile isTrimmed))

/-- `\s+\|\s*`. -/
def takeBar (s : JsString) : Option JsString :=
  if s.takeWhile isTrimmed = [] then none
  else
    match s.dropWhile isTrimmed with
    | 124 :: rest => some (rest.dropWhile isTrimmed)
    | _ => none

/-- The shortest prefix: the empty one if the rest fits `here`, else a longer one. -/
def extendPrefix (c : CodeUnit) (here : Option (Stamp × JsString))
    (longer : Option (JsString × Stamp × JsString)) : Option (JsString × Stamp × JsString) :=
  match here with
  | some found => some ([], found)
  | none => if isLineTerminator c then none else longer.map fun r => (c :: r.1, r.2)

/-- `^(.*?)\s+\|\s*${timestampPattern}(?:\s+(.*))?$`. -/
def takePrefixed : JsString → Option (JsString × Stamp × JsString)
  | [] => none
  | c :: rest => extendPrefix c ((takeBar (c :: rest)).bind takeMessage) (takePrefixed rest)

/-- The timestamp expression: with a prefix where one fits, else without. -/
def matchTimestamp (s : JsString) : Option (Option JsString × Stamp × JsString) :=
  match takePrefixed s with
  | some (front, found) => some (some front, found)
  | none => (takeMessage s).map fun found => (none, found)

/-- `fraction ? fraction.slice(0, 4).padEnd(4, '0') : ''`. -/
def Stamp.milliseconds (stamp : Stamp) : JsString :=
  if stamp.fraction = [] then []
  else stamp.fraction.take 4 ++ List.replicate (4 - (stamp.fraction.take 4).length) 48

/-- `new Date(base + milliseconds + zone)`; `none` is an invalid date. -/
def Stamp.time (stamp : Stamp) : Option ℤ :=
  dateParse (stamp.base ++ stamp.milliseconds ++ stamp.zone)

/-- `date.toISOString()`. -/
def toISOString? : Option ℤ → Except RangeError JsString
  | some time => .ok (toISOString time)
  | none => .error ⟨js "Invalid time value"⟩

/-! ## Lines of compose -/

/-- The name without the number `-\d+` at its end. -/
def composeServiceName (containerName : JsString) : JsString :=
  let front := containerName.rdropWhile isDigit
  if front.length < containerName.length ∧ front.getLast? = some 45 then front.dropLast
  else containerName

/-- `/^([^|\s]+)\s+\|\s*(.*)$/`. -/
def composeLine (s : JsString) : Option (JsString × JsString) := do
  let front := s.takeWhile fun c => !(c == 124 || isTrimmed c)
  if front = [] then none
  else
    let message ← (takeBar (s.drop front.length)).bind takeRest
    return (front, message)

/-- `[A-Za-z0-9_.-]`. -/
def isNameUnit (c : CodeUnit) : Bool :=
  (65 ≤ c.val && c.val ≤ 90) || (97 ≤ c.val && c.val ≤ 122) || (48 ≤ c.val && c.val ≤ 57) ||
    c == 95 || c == 46 || c == 45

/-- `exited with code .*|Killed|Aborted|Terminated`, up to the end. -/
def isEventText (s : JsString) : Bool :=
  ((js "exited with code ").isPrefixOf s && !s.any isLineTerminator) ||
    s == js "Killed" || s == js "Aborted" || s == js "Terminated"

/-- `/^([A-Za-z0-9_.-]+-\d+)\s+(exited with code .*|Killed|Aborted|Terminated)$/`. -/
def composeEvent (s : JsString) : Option (JsString × JsString) :=
  let name := s.takeWhile isNameUnit
  let rest := s.drop name.length
  let message := rest.dropWhile isTrimmed
  let stem := name.rdropWhile isDigit
  if stem.length < name.length ∧ stem.getLast? = some 45 ∧ 2 ≤ stem.length ∧
      message.length < rest.length ∧ isEventText message then some (name, message)
  else none

/-! ## Entries -/

/-- `containerName ? composeServiceName(containerName) : undefined`. -/
def composeServiceOf : Option JsString → Option JsString
  | some containerName =>
      if containerName = [] then none else some (composeServiceName containerName)
  | none => none

/-- `prefix?.trim() || defaultContainerName`. -/
def containerOf (front defaultContainerName : Option JsString) : Option JsString :=
  match front with
  | some front => if trim front = [] then defaultContainerName else some (trim front)
  | none => defaultContainerName

/-- The entry of a line with a timestamp. -/
def stampedEntry (found : Option JsString × Stamp × JsString)
    (defaultContainerName : Option JsString) : Except RangeError DockerLogEntry := do
  let (front, stamp, message) := found
  let timestamp ← toISOString? stamp.time
  let containerName := containerOf front defaultContainerName
  return {
    line := message
    timestamp := some timestamp
    containerName := containerName
    composeService := composeServiceOf containerName }

/-- The entry of a line without a timestamp and without a prefix. -/
def plainEntry (cleaned : JsString) (defaultContainerName : Option JsString) : DockerLogEntry :=
  match composeEvent cleaned with
  | some (containerName, message) => {
      line := message
      containerName := some containerName
      composeService := some (composeServiceName containerName) }
  | none => { line := cleaned, containerName := defaultContainerName }

/-- What the engine throws when its stack is full. -/
def stackOverflow : RangeError := ⟨js "Maximum call stack size exceeded"⟩

/-- One call of `parseDockerLogLine`, which calls itself for what is behind a
compose prefix. -/
def parseCall (nestedCall : JsString → Option JsString → Except RangeError DockerLogEntry)
    (line : JsString) (defaultContainerName : Option JsString) :
    Except RangeError DockerLogEntry :=
  match matchTimestamp (cleanLine line), composeLine (cleanLine line) with
  | some found, _ => stampedEntry found defaultContainerName
  | none, none => return plainEntry (cleanLine line) defaultContainerName
  | none, some (containerName, message) => do
      let nested ← nestedCall message (some containerName)
      return { nested with
        containerName := some (nested.containerName.getD containerName)
        composeService :=
          some (nested.composeService.getD (composeServiceName containerName)) }

/-- `stack` is how many calls inside one another the engine's stack has room for
below the first one. -/
def parseDockerLogLine : (stack : ℕ) → (line : JsString) →
    (defaultContainerName : Option JsString) → Except RangeError DockerLogEntry
  | 0 => parseCall fun _ _ => throw stackOverflow
  | stack + 1 => parseCall (parseDockerLogLine stack)

theorem exists_parseCall (stack : ℕ) :
    ∃ nestedCall, parseDockerLogLine stack = parseCall nestedCall := by
  cases stack <;> exact ⟨_, rfl⟩

/-- A timestamp is read without a call of itself. -/
theorem parseDockerLogLine_of_match (stack : ℕ) {line : JsString}
    {found : Option JsString × Stamp × JsString} (h : matchTimestamp (cleanLine line) = some found)
    (defaultContainerName : Option JsString) :
    parseDockerLogLine stack line defaultContainerName =
      stampedEntry found defaultContainerName := by
  obtain ⟨nestedCall, hcall⟩ := exists_parseCall stack
  rw [hcall, parseCall, h]

def runtimeLogEntry (stack : ℕ) (line : JsString) (defaultContainerName : Option JsString)
    (stderr : Bool) : Except RangeError (Option DockerLogEntry) := do
  let parsed ← parseDockerLogLine stack line defaultContainerName
  if trim parsed.line = [] then return none
  else
    return some { parsed with
      source := some .runtime
      stream := some .runtime
      line := if stderr then js "ERROR: " ++ parsed.line else parsed.line
      stderr := if stderr then some true else none }

example : runtimeLogEntry 0 (js "web-1  | 2026-01-05T10:00:00.123456789Z ready") (some (js "app"))
    false = .ok (some {
      line := js "ready"
      timestamp := some (js "2026-01-05T10:00:00.123Z")
      source := some .runtime
      stream := some .runtime
      containerName := some (js "web-1")
      composeService := some (js "web") }) := by
  decide +kernel

/-! ## The timestamps of entries -/

theorem inTimeRange_of_dateParse {text : JsString} {time : ℤ} (h : dateParse text = some time) :
    inTimeRange time = true := by
  unfold dateParse at h
  obtain ⟨fields, -, h⟩ := Option.bind_eq_some_iff.mp h
  obtain ⟨offset, -, h⟩ := Option.bind_eq_some_iff.mp h
  dsimp only at h
  split_ifs at h with hrange
  obtain rfl := Option.some.inj h
  exact (Bool.and_eq_true_iff.mp hrange).2

/-- A stamp of the timestamp expression starts with a digit. -/
def Stamp.Dated (stamp : Stamp) : Prop := ∃ c rest, isDigit c = true ∧ stamp.base = c :: rest

theorem takeStamp_dated {s rest : JsString} {stamp : Stamp}
    (h : takeStamp s = some (stamp, rest)) : stamp.Dated := by
  have hshape : ∃ shape, js "dddd-dd-ddTdd:dd:dd" = 100 :: shape := ⟨_, rfl⟩
  obtain ⟨shape, hshape⟩ := hshape
  unfold takeStamp at h
  obtain ⟨⟨base, afterBase⟩, hbase, h⟩ := Option.bind_eq_some_iff.mp h
  obtain ⟨⟨zone, afterZone⟩, -, h⟩ := Option.bind_eq_some_iff.mp h
  obtain ⟨rfl, -⟩ := Prod.mk.inj (Option.some.inj h)
  rw [hshape] at hbase
  cases s with
  | nil => cases hbase
  | cons c s =>
      rw [takeShape, if_pos rfl] at hbase
      split_ifs at hbase with hc
      obtain ⟨r, -, hr⟩ := Option.map_eq_some_iff.mp hbase
      obtain ⟨rfl, -⟩ := Prod.mk.inj hr
      exact ⟨c, r.1, hc, rfl⟩

theorem takeMessage_dated {s message : JsString} {stamp : Stamp}
    (h : takeMessage s = some (stamp, message)) : stamp.Dated := by
  unfold takeMessage at h
  obtain ⟨⟨found, rest⟩, hfound, h⟩ := Option.bind_eq_some_iff.mp h
  have hdated := takeStamp_dated hfound
  dsimp only at h
  split_ifs at h
  · obtain ⟨rfl, -⟩ := Prod.mk.inj (Option.some.inj h)
    exact hdated
  · obtain ⟨text, -, h⟩ := Option.bind_eq_some_iff.mp h
    obtain ⟨rfl, -⟩ := Prod.mk.inj (Option.some.inj h)
    exact hdated

theorem takePrefixed_dated {s front message : JsString} {stamp : Stamp}
    (h : takePrefixed s = some (front, stamp, message)) : stamp.Dated := by
  induction s generalizing front with
  | nil => cases h
  | cons c s ih =>
      rw [takePrefixed] at h
      unfold extendPrefix at h
      cases hhere : (takeBar (c :: s)).bind takeMessage with
      | some found =>
          rw [hhere] at h
          obtain ⟨-, rfl⟩ := Prod.mk.inj (Option.some.inj h)
          obtain ⟨tail, -, hfound⟩ := Option.bind_eq_some_iff.mp hhere
          exact takeMessage_dated hfound
      | none =>
          rw [hhere] at h
          dsimp only at h
          split_ifs at h
          obtain ⟨⟨front', found⟩, hfound, hpair⟩ := Option.map_eq_some_iff.mp h
          obtain ⟨-, rfl⟩ := Prod.mk.inj hpair
          exact ih hfound

theorem matchTimestamp_dated {s message : JsString} {front : Option JsString} {stamp : Stamp}
    (h : matchTimestamp s = some (front, stamp, message)) : stamp.Dated := by
  unfold matchTimestamp at h
  split at h
  · rename_i hfound
    obtain ⟨-, rfl⟩ := Prod.mk.inj (Option.some.inj h)
    exact takePrefixed_dated hfound
  · obtain ⟨found, hfound, hpair⟩ := Option.map_eq_some_iff.mp h
    obtain ⟨-, rfl⟩ := Prod.mk.inj hpair
    exact takeMessage_dated hfound

/-- A timestamp is one that `toISOString` writes, and there is an earlier one. -/
def IsoTimestamp (entry : DockerLogEntry) : Prop :=
  ∀ text, entry.timestamp = some text →
    ∃ time, inTimeRange time = true ∧ inTimeRange (time - 1) = true ∧ text = toISOString time

theorem plainEntry_timestamp (cleaned : JsString) (defaultContainerName : Option JsString) :
    (plainEntry cleaned defaultContainerName).timestamp = none := by
  unfold plainEntry
  split <;> rfl

theorem stampedEntry_timestamp {found : Option JsString × Stamp × JsString}
    {defaultContainerName : Option JsString} {entry : DockerLogEntry} (hdated : found.2.1.Dated)
    (h : stampedEntry found defaultContainerName = .ok entry) : IsoTimestamp entry := by
  obtain ⟨front, stamp, message⟩ := found
  unfold stampedEntry at h
  dsimp only at h
  cases htime : stamp.time with
  | none =>
      rw [htime] at h
      cases h
  | some time =>
      rw [htime] at h
      obtain rfl := Except.ok.inj h
      intro text htext
      have hrange := inTimeRange_of_dateParse htime
      obtain ⟨c, rest, hc, hbase⟩ := hdated
      have hlower : -8640000000000000 < time := by
        rw [Stamp.time, hbase, List.cons_append, List.cons_append] at htime
        exact dateParse_lower hc htime
      refine ⟨time, hrange, ?_, (Option.some.inj htext).symm⟩
      simp only [inTimeRange, Bool.and_eq_true, decide_eq_true_eq] at hrange ⊢
      omega

theorem parseCall_timestamp
    {nestedCall : JsString → Option JsString → Except RangeError DockerLogEntry}
    (hnested : ∀ {line name entry}, nestedCall line name = .ok entry → IsoTimestamp entry)
    {line : JsString} {defaultContainerName : Option JsString} {entry : DockerLogEntry}
    (h : parseCall nestedCall line defaultContainerName = .ok entry) : IsoTimestamp entry := by
  unfold parseCall at h
  cases hmatch : matchTimestamp (cleanLine line) with
  | some found =>
      rw [hmatch] at h
      exact stampedEntry_timestamp (matchTimestamp_dated hmatch) h
  | none =>
      cases hcompose : composeLine (cleanLine line) with
      | none =>
          rw [hmatch, hcompose] at h
          obtain rfl := Except.ok.inj h
          intro text htext
          rw [plainEntry_timestamp] at htext
          cases htext
      | some found =>
          rw [hmatch, hcompose] at h
          cases hcall : nestedCall found.2 (some found.1) with
          | error e =>
              simp only [hcall] at h
              cases h
          | ok nested =>
              simp only [hcall] at h
              obtain rfl := Except.ok.inj h
              have hinner : IsoTimestamp nested := hnested hcall
              exact fun text htext => hinner text htext

theorem parseDockerLogLine_timestamp {stack : ℕ} {line : JsString}
    {defaultContainerName : Option JsString} {entry : DockerLogEntry}
    (h : parseDockerLogLine stack line defaultContainerName = .ok entry) : IsoTimestamp entry := by
  induction stack generalizing line defaultContainerName entry with
  | zero => exact parseCall_timestamp (fun hcall => by cases hcall) h
  | succ stack ih => exact parseCall_timestamp ih h

theorem runtimeLogEntry_timestamp {stack : ℕ} {line : JsString}
    {defaultContainerName : Option JsString} {stderr : Bool} {entry : DockerLogEntry}
    (h : runtimeLogEntry stack line defaultContainerName stderr = .ok (some entry)) :
    IsoTimestamp entry := by
  unfold runtimeLogEntry at h
  cases hparsed : parseDockerLogLine stack line defaultContainerName with
  | error e =>
      simp only [hparsed] at h
      cases h
  | ok parsed =>
      simp only [hparsed] at h
      change (if trim parsed.line = [] then _ else _) = _ at h
      have hinner : IsoTimestamp parsed := parseDockerLogLine_timestamp hparsed
      by_cases hblank : trim parsed.line = []
      · rw [if_pos hblank] at h
        cases Except.ok.inj h
      · rw [if_neg hblank] at h
        obtain rfl := Option.some.inj (Except.ok.inj h)
        exact fun text htext => hinner text htext

end OpticsAgent.Docker
