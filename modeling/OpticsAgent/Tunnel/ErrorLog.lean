import Mathlib
import OpticsAgent.Ecma.NumberText
import OpticsAgent.Lib.InsertionMap
import OpticsAgent.Lib.Machine

/-!
`TunnelErrorLog`: errors that repeat are gathered for a minute. The first one
after a quiet time is printed at once and opens a window; what comes while a
window is open is counted by its kind and printed when the window's timer fires,
which may be late. A window in which nothing came is not opened again.
-/

namespace OpticsAgent.Tunnel

open OpticsAgent.Ecma OpticsAgent.Lib

def logWindowMs : ℕ := 60000

structure SeenError where
  count : ℕ
  detail : JsString
deriving DecidableEq

/-- What is printed at a time: one error, or the kinds of a window. -/
inductive PrintedErrors where
  | first (kind detail : JsString)
  | window (entries : List (JsString × SeenError))
deriving DecidableEq

def PrintedErrors.text : PrintedErrors → JsString
  | .first kind detail =>
      js "[Rev. Tunnel Service] \x7b\x7b orange : bold : " ++ kind ++ js " \x7d\x7d\n  " ++ detail
  | .window entries =>
      js "[Rev. Tunnel Service] \x7b\x7b orange : bold : PRECONN:ERRORS \x7d\x7d\n  last " ++
        (naturalDigits (logWindowMs / 1000)).map digitUnit ++ js "s\n" ++
        [10].intercalate (entries.map fun entry => js "  " ++ entry.1 ++ js " x" ++
          (naturalDigits entry.2.count).map digitUnit ++ js " — " ++ entry.2.detail)

/-- `window` holds the id of a timer; the running timers are with the times they
are due at. -/
structure TunnelErrorLog where
  counts : InsertionMap JsString SeenError := {}
  window : Option ℕ := none
  timers : List (ℕ × ℕ) := []
  nextTimer : ℕ := 0
  clock : ℕ := 0
  /-- What was printed, with the times, oldest first. -/
  printed : List (ℕ × PrintedErrors) := []
  /-- The calls of `record`, oldest first. -/
  recorded : List (JsString × JsString) := []

namespace TunnelErrorLog

def print (s : TunnelErrorLog) (what : PrintedErrors) : TunnelErrorLog :=
  { s with printed := s.printed ++ [(s.clock, what)] }

def openWindow (s : TunnelErrorLog) : TunnelErrorLog :=
  { s with
    window := some s.nextTimer
    timers := s.timers ++ [(s.nextTimer, s.clock + logWindowMs)]
    nextTimer := s.nextTimer + 1 }

def record (s : TunnelErrorLog) (kind detail : JsString) : TunnelErrorLog :=
  let s := { s with recorded := s.recorded ++ [(kind, detail)] }
  if s.window = none then (s.print (.first kind detail)).openWindow
  else
    match s.counts.get kind with
    | some seen => { s with counts := s.counts.set kind ⟨seen.count + 1, detail⟩ }
    | none => { s with counts := s.counts.set kind ⟨1, detail⟩ }

def flush (s : TunnelErrorLog) : TunnelErrorLog :=
  if s.counts.entries = [] then { s with window := none }
  else { s.print (.window s.counts.entries) with counts := {} }.openWindow

end TunnelErrorLog

/-- With the time it happens at. -/
inductive ErrorLogEvent where
  | record (now : ℕ) (kind detail : JsString)
  | timeout (now id : ℕ)

/-- The clock does not go back, and no timer fires early. -/
def errorLog : Machine TunnelErrorLog ErrorLogEvent where
  step s
    | .record now kind detail =>
        if s.clock ≤ now then some ({ s with clock := now }.record kind detail) else none
    | .timeout now id =>
        if s.clock ≤ now ∧ ∃ t ∈ s.timers, t.1 = id ∧ t.2 ≤ now then
          some { s with clock := now, timers := s.timers.filter fun t => t.1 ≠ id }.flush
        else none

/-! ## Counting by kind -/

/-- How many errors of a kind a line stands for. -/
def PrintedErrors.countOf (kind : JsString) : PrintedErrors → ℕ
  | .first printed _ => if printed = kind then 1 else 0
  | .window entries => ((entries.filter fun entry => entry.1 = kind).map fun entry =>
      entry.2.count).sum

namespace TunnelErrorLog

def recordedOf (s : TunnelErrorLog) (kind : JsString) : List (JsString × JsString) :=
  s.recorded.filter fun error => error.1 = kind

def printedOf (s : TunnelErrorLog) (kind : JsString) : ℕ :=
  (s.printed.map fun line => line.2.countOf kind).sum

/-- Counted and not printed yet. -/
def pendingOf (s : TunnelErrorLog) (kind : JsString) : ℕ :=
  ((s.counts.get kind).map SeenError.count).getD 0

/-- A window prints what the map has of each kind. -/
theorem countOf_window (m : InsertionMap JsString SeenError) (kind : JsString) :
    (PrintedErrors.window m.entries).countOf kind = ((m.get kind).map SeenError.count).getD 0 := by
  obtain ⟨entries, hnodup⟩ := m
  rw [PrintedErrors.countOf, InsertionMap.get]
  induction entries with
  | nil => rfl
  | cons entry rest ih =>
      obtain ⟨hfresh, hrest⟩ := List.nodup_cons.mp hnodup
      by_cases hkind : entry.1 = kind
      · have hnone : rest.filter (fun e => e.1 = kind) = [] := by
          refine List.filter_eq_nil_iff.mpr fun e he hsame => hfresh ?_
          rw [hkind, ← of_decide_eq_true hsame]
          exact List.mem_map_of_mem he
        simp [hkind, hnone]
      · simpa [hkind] using ih hrest

/-! ## What holds of every log -/

/-- Nothing is lost, the lines are a window apart, and the window that is open has
the only timer. -/
structure Sound (s : TunnelErrorLog) : Prop where
  conserved : ∀ kind, (s.recordedOf kind).length = s.printedOf kind + s.pendingOf kind
  latest : ∀ kind seen, s.counts.get kind = some seen →
    (s.recordedOf kind).getLast? = some (kind, seen.detail)
  spaced : s.printed.Pairwise fun a b => a.1 + logWindowMs ≤ b.1
  closed : s.window = none → s.timers = [] ∧ s.counts.entries = [] ∧
    ∀ line ∈ s.printed, line.1 + logWindowMs ≤ s.clock
  opened : ∀ id, s.window = some id → ∃ due, s.timers = [(id, due)] ∧
    due ≤ s.clock + logWindowMs ∧ ∀ line ∈ s.printed, line.1 + logWindowMs ≤ due

theorem Sound.start : Sound {} where
  conserved _ := rfl
  latest _ _ h := by cases h
  spaced := List.Pairwise.nil
  closed _ := ⟨rfl, rfl, fun _ h => by cases h⟩
  opened _ h := by cases h

variable {s : TunnelErrorLog}

theorem Sound.tick (h : s.Sound) {now : ℕ} (hnow : s.clock ≤ now) :
    Sound { s with clock := now } where
  conserved := h.conserved
  latest := h.latest
  spaced := h.spaced
  closed hclosed := by
    obtain ⟨htimers, hcounts, hlines⟩ := h.closed hclosed
    exact ⟨htimers, hcounts, fun line hline => (hlines line hline).trans hnow⟩
  opened id hid := by
    obtain ⟨due, htimers, hdue, hlines⟩ := h.opened id hid
    refine ⟨due, htimers, ?_, hlines⟩
    change due ≤ now + logWindowMs
    omega

theorem get_of_entries_nil {m : InsertionMap JsString SeenError} (h : m.entries = [])
    (kind : JsString) : m.get kind = none := by
  rw [InsertionMap.get, h]
  rfl

/-- A line is printed where every line before it is a window ago. -/
theorem pairwise_print (h : s.Sound) (hlines : ∀ line ∈ s.printed, line.1 + logWindowMs ≤ s.clock)
    (what : PrintedErrors) :
    (s.printed ++ [(s.clock, what)]).Pairwise fun a b => a.1 + logWindowMs ≤ b.1 := by
  rw [List.pairwise_append]
  refine ⟨h.spaced, List.pairwise_singleton .., fun a ha b hb => ?_⟩
  rw [List.mem_singleton.mp hb]
  exact hlines a ha

theorem forall_print {bound : ℕ}
    (hold : ∀ line ∈ s.printed, line.1 + logWindowMs ≤ bound)
    (hnew : s.clock + logWindowMs ≤ bound) (what : PrintedErrors) :
    ∀ line ∈ s.printed ++ [(s.clock, what)], line.1 + logWindowMs ≤ bound := by
  intro line hline
  rcases List.mem_append.mp hline with hmem | hmem
  · exact hold line hmem
  · rw [List.mem_singleton.mp hmem]
    exact hnew

/-- The first error after a quiet time. -/
theorem Sound.record_first (h : s.Sound) (hclosed : s.window = none) (kind detail : JsString) :
    (s.record kind detail).Sound := by
  obtain ⟨htimers, hcounts, hlines⟩ := h.closed hclosed
  have hnone := get_of_entries_nil hcounts
  rw [record, if_pos hclosed]
  constructor
  case conserved =>
    intro kind'
    have hbefore := h.conserved kind'
    simp only [recordedOf, printedOf, pendingOf, openWindow, print, hnone] at hbefore ⊢
    by_cases hkind : kind = kind'
    · simp [hkind, PrintedErrors.countOf, hbefore]
    · simp [hkind, PrintedErrors.countOf, hbefore]
  case latest =>
    intro kind' seen hseen
    have hold : s.counts.get kind' = some seen := hseen
    rw [hnone kind'] at hold
    cases hold
  case spaced => exact pairwise_print h hlines _
  case closed =>
    intro hopen
    cases hopen
  case opened =>
    intro id hid
    obtain rfl : s.nextTimer = id := Option.some.inj hid
    refine ⟨s.clock + logWindowMs, ?_, le_refl _, ?_⟩
    · simp [openWindow, print, htimers]
    · refine forall_print (fun line hline => ?_) (le_refl _) _
      exact (hlines line hline).trans (Nat.le_add_right _ _)

/-- An error while a window is open is counted. -/
theorem record_counts (hopen : s.window ≠ none) (kind detail : JsString) :
    s.record kind detail = { s with
      recorded := s.recorded ++ [(kind, detail)]
      counts := s.counts.set kind ⟨s.pendingOf kind + 1, detail⟩ } := by
  rw [record, if_neg hopen, pendingOf]
  cases hseen : s.counts.get kind with
  | some seen => rfl
  | none => rfl

theorem Sound.record_counted (h : s.Sound) (hopen : s.window ≠ none) (kind detail : JsString) :
    (s.record kind detail).Sound := by
  rw [record_counts hopen]
  constructor
  case conserved =>
    intro kind'
    have hbefore := h.conserved kind'
    simp only [recordedOf, printedOf, pendingOf, InsertionMap.get_set] at hbefore ⊢
    by_cases hkind : kind = kind'
    · subst hkind
      simp [hbefore]
      omega
    · simp [hkind, hbefore]
  case latest =>
    intro kind' seen hseen
    simp only [InsertionMap.get_set] at hseen
    by_cases hkind : kind = kind'
    · subst hkind
      rw [if_pos rfl] at hseen
      obtain rfl := Option.some.inj hseen
      simp [recordedOf]
    · rw [if_neg hkind] at hseen
      have hlast := h.latest kind' seen hseen
      simp only [recordedOf] at hlast ⊢
      simp [hkind, hlast]
  case spaced => exact h.spaced
  case closed => exact fun hclosed => absurd hclosed hopen
  case opened => exact h.opened

/-- The timer of the window that is open fires. -/
theorem Sound.flush (h : s.Sound) {due : ℕ} (hdue : due ≤ s.clock)
    (hlines : ∀ line ∈ s.printed, line.1 + logWindowMs ≤ due) :
    ({ s with timers := [] }.flush).Sound := by
  have hpast : ∀ line ∈ s.printed, line.1 + logWindowMs ≤ s.clock :=
    fun line hline => (hlines line hline).trans hdue
  by_cases hempty : s.counts.entries = []
  · rw [TunnelErrorLog.flush, if_pos hempty]
    constructor
    case conserved => exact h.conserved
    case latest => exact h.latest
    case spaced => exact h.spaced
    case closed => exact fun _ => ⟨rfl, hempty, hpast⟩
    case opened =>
      intro id hid
      cases hid
  · rw [TunnelErrorLog.flush, if_neg hempty]
    constructor
    case conserved =>
      intro kind
      have hbefore := h.conserved kind
      have hcount := countOf_window s.counts kind
      simp only [recordedOf, printedOf, pendingOf, openWindow, print] at hbefore ⊢
      rw [hbefore, List.map_append, List.sum_append, ← hcount]
      simp [InsertionMap.get]
    case latest =>
      intro kind seen hseen
      cases hseen
    case spaced => exact pairwise_print h hpast _
    case closed =>
      intro hopen
      cases hopen
    case opened =>
      intro id hid
      obtain rfl : s.nextTimer = id := Option.some.inj hid
      refine ⟨s.clock + logWindowMs, rfl, le_refl _, ?_⟩
      refine forall_print (fun line hline => ?_) (le_refl _) _
      exact (hpast line hline).trans (Nat.le_add_right _ _)

theorem Sound.step (h : s.Sound) {e : ErrorLogEvent} {s' : TunnelErrorLog}
    (hstep : errorLog.step s e = some s') : s'.Sound := by
  cases e with
  | record now kind detail =>
      simp only [errorLog] at hstep
      split_ifs at hstep with hnow
      obtain rfl := Option.some.inj hstep
      have hticked := h.tick hnow
      by_cases hclosed : s.window = none
      · exact hticked.record_first hclosed kind detail
      · exact hticked.record_counted hclosed kind detail
  | timeout now id =>
      simp only [errorLog] at hstep
      split_ifs at hstep with hfires
      obtain rfl := Option.some.inj hstep
      obtain ⟨hnow, t, ht, rfl, hdue⟩ := hfires
      cases hwindow : s.window with
      | none =>
          rw [(h.closed hwindow).1] at ht
          cases ht
      | some w =>
          -- the only timer is the window's, and it is the one that fires
          obtain ⟨due, htimers, -, hlines⟩ := h.opened w hwindow
          rw [htimers, List.mem_singleton] at ht
          subst ht
          have hgone : s.timers.filter (fun u => u.1 ≠ w) = [] := by
            rw [htimers]
            simp
          rw [hgone]
          have hflushed := (h.tick hnow).flush hdue hlines
          exact hflushed

end TunnelErrorLog

/-- In every run, every error is printed or still counted, with the latest detail
of its kind; lines are at least a minute apart; and what is still counted has a
timer that will print it within a minute. -/
theorem errors_printed_by_the_minute {events : List ErrorLogEvent} {s : TunnelErrorLog}
    (hrun : errorLog.run {} events = some s) :
    (∀ kind, (s.recordedOf kind).length = s.printedOf kind + s.pendingOf kind) ∧
      s.printed.Pairwise (fun a b => a.1 + logWindowMs ≤ b.1) ∧
      ∀ kind seen, s.counts.get kind = some seen →
        (s.recordedOf kind).getLast? = some (kind, seen.detail) ∧
        ∃ id due, s.window = some id ∧ s.timers = [(id, due)] ∧ due ≤ s.clock + logWindowMs := by
  have hsound : s.Sound :=
    Machine.run_invariant (fun _ _ _ hs hstep => hs.step hstep) TunnelErrorLog.Sound.start hrun
  refine ⟨hsound.conserved, hsound.spaced,
    fun kind seen hseen => ⟨hsound.latest kind seen hseen, ?_⟩⟩
  cases hwindow : s.window with
  | none =>
      rw [TunnelErrorLog.get_of_entries_nil (hsound.closed hwindow).2.1] at hseen
      cases hseen
  | some id =>
      obtain ⟨due, htimers, hdue, -⟩ := hsound.opened id hwindow
      exact ⟨id, due, rfl, htimers, hdue⟩

/-- Four refused connections, the last one after the first window. -/
def refusals : List ErrorLogEvent :=
  [.record 5 (js "PRECONN:ERROR") (js "first"), .record 20 (js "PRECONN:ERROR") (js "second"),
    .record 30 (js "PRECONN:ERROR") (js "third"), .timeout 60010 0,
    .record 60020 (js "PRECONN:ERROR") (js "fourth")]

theorem refusals_printed_by_the_minute : ∃ s, errorLog.run {} refusals = some s ∧
    s.printed.length = 2 ∧
    (∀ kind, (s.recordedOf kind).length = s.printedOf kind + s.pendingOf kind) ∧
    s.printed.Pairwise (fun a b => a.1 + logWindowMs ≤ b.1) ∧
    ∃ due, s.window = some 1 ∧ s.timers = [(1, due)] ∧ due ≤ s.clock + logWindowMs := by
  have hrun : (errorLog.run {} refusals).any (fun s => decide (s.printed.length = 2) &&
      decide (s.window = some 1) &&
      decide (s.counts.get (js "PRECONN:ERROR") = some ⟨1, js "fourth"⟩)) = true := by
    decide +kernel
  obtain ⟨s, hs, hchecks⟩ := (Option.any_eq_true _ _).mp hrun
  simp only [Bool.and_eq_true, decide_eq_true_eq] at hchecks
  obtain ⟨⟨hlength, hwindow⟩, hseen⟩ := hchecks
  obtain ⟨hconserved, hspaced, hpending⟩ := errors_printed_by_the_minute hs
  obtain ⟨-, id, due, hid, htimers, hdue⟩ := hpending _ _ hseen
  obtain rfl : 1 = id := Option.some.inj (hwindow.symm.trans hid)
  exact ⟨s, hs, hlength, hconserved, hspaced, due, hid, htimers, hdue⟩

end OpticsAgent.Tunnel
