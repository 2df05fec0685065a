import Mathlib
import OpticsAgent.Lib.Protocol
import OpticsAgent.Tunnel.Commands

/-!
What each task did in a run. The history of a task is the list of its
operations with their replies, also of those it did not have to wait for; its
reports are the emissions in it. A handler that obeys a protocol makes tasks
whose histories the protocol accepts, whatever the other tasks do in between.
-/

namespace OpticsAgent.Tunnel

open OpticsAgent.Ecma OpticsAgent.Lib OpticsAgent.Docker OpticsAgent.Docker.Agent
open OpticsAgent.Service

abbrev History := List (Exchange Op Op.Reply)

def emissionOf (e : Exchange Op Op.Reply) : Option Emission :=
  match e.op with
  | .books (.emit emission) => some emission
  | _ => none

def emissions (history : History) : List Emission := history.filterMap emissionOf

/-- What a task reported. -/
def System.reportsOf (s : System) (k : ℕ) : List Emission :=
  (s.reports.filter fun report => report.task = k).map Report.emission

namespace System

variable (settings : Settings)

def settling (program : Agent Unit) (books : Books) : History :=
  program.settling memory { books with emitted := [] }

/-- The task a happening moves, and what the task does. -/
def moved (s : System) : Happening → Option (ℕ × History)
  | .command c => some (s.tasks.length, settling (handleCommand settings c) s.books)
  | .created .. => none
  | .docker container status timestamp action exitCode =>
      (s.nameOf container).map fun name =>
        (s.tasks.length, settling (onStatusEvent settings
          { status := status
            containerName := name
            timestamp := timestamp
            action := action
            exitCode := exitCode }) s.books)
  | .resume k answer =>
      (s.tasks[k]?).bind fun task =>
        match task.program with
        | .perform (.books op) next =>
            let answered := Books.perform op s.books
            some (k, ⟨.books op, answered.1⟩ :: settling (next answered.1) answered.2)
        | .perform (.call c) next =>
            some (k, ⟨.call c, answer c⟩ :: settling (next (answer c)) s.books)
        | .pure _ => none
        | .throw _ => none
  | .reject k error =>
      (s.tasks[k]?).bind fun task =>
        match task.program with
        | .perform (.books op) next =>
            (op.rejected error).map fun reply =>
              (k, ⟨.books op, reply⟩ :: settling (next reply) s.books)
        | .perform (.call _) _ => none
        | .pure _ => none
        | .throw _ => none
  | .updated .. => none

/-- What task `k` does in the happening. -/
def doneBy (s : System) (k : ℕ) (e : Happening) : History :=
  match s.moved settings e with
  | some (j, history) => if j = k then history else []
  | none => []

/-- What task `k` does in a run. -/
def history (k : ℕ) : System → List Happening → History
  | _, [] => []
  | s, e :: rest =>
      match step settings s e with
      | none => []
      | some s' => s.doneBy settings k e ++ history k s' rest

end System

/-! ## Reports and histories -/

@[simp] theorem emissions_append (xs ys : History) :
    emissions (xs ++ ys) = emissions xs ++ emissions ys := List.filterMap_append

/-- A task that settles emits what its history says. -/
theorem emitted_settling (p : Agent Unit) (books : Books) :
    (p.settle memory books).2.emitted =
      books.emitted ++ emissions (p.settling memory books) := by
  induction p generalizing books with
  | pure a => exact (List.append_nil _).symm
  | throw e => exact (List.append_nil _).symm
  | perform op next ih =>
      match op with
      | .books (.emit emission) =>
          have hrest := ih () (Books.perform (.emit emission) books).2
          exact hrest.trans (List.append_assoc books.emitted [emission] _)
      | .books .now => exact ih _ (Books.perform .now books).2
      | .books (.track i service) => exact ih () (Books.perform (.track i service) books).2
      | .books .tracked => exact ih books.tracked books
      | .books (.storeSnapshot snapshot) =>
          exact ih () (Books.perform (.storeSnapshot snapshot) books).2
      | .books (.sendUpdate i status lastOnline) =>
          exact ih () (Books.perform (.sendUpdate i status lastOnline) books).2
      | .books .turn | .books (.findMarker ..) | .books (.createMarker _)
      | .books (.deleteMarkers _) | .books (.deleteServices _) | .books (.updateServices ..)
      | .call _ => exact (List.append_nil _).symm

namespace System

variable {settings : Settings} {s s' : System}

theorem emitted_settled (program : Agent Unit) (books : Books) :
    (settled program books).2.emitted = emissions (settling program books) := by
  exact (emitted_settling program { books with emitted := [] }).trans (List.nil_append _)

theorem reportsOf_append {more : List Report} (k : ℕ) (h : s'.reports = s.reports ++ more) :
    s'.reportsOf k =
      s.reportsOf k ++ (more.filter fun report => report.task = k).map Report.emission := by
  rw [reportsOf, h, List.filter_append, List.map_append]
  rfl

theorem filter_reported (k j : ℕ) (origin : Origin) (books : Books) :
    ((reported j origin books).filter fun report => report.task = k).map Report.emission =
      if j = k then books.emitted else [] := by
  unfold reported
  rw [List.filter_map, List.map_map]
  split_ifs with hk
  · rw [List.filter_eq_self.mpr fun e _ => by simp [hk]]
    exact List.map_id _
  · rw [List.filter_eq_nil_iff.mpr fun e _ => by simp [hk]]
    rfl

/-- The program a task of this origin starts with. -/
def Starts (settings : Settings) (program : Agent Unit) : Origin → Prop
  | .command c => program = handleCommand settings c
  | .event _ => ∃ event, program = onStatusEvent settings event

/-- Nothing but the rows and the updates on their way to them has changed. -/
def SameButRows (old new : Books) : Prop :=
  ∃ services updates, new = { old with services := services, updates := updates }

/-- The three ways a step moves tasks: not at all, by a new task, or by one that
goes on with the reply it waited for. -/
theorem moved_cases {e : Happening} (h : step settings s e = some s') :
    (s.moved settings e = none ∧ s'.tasks = s.tasks ∧ s'.reports = s.reports ∧
      SameButRows s.books s'.books) ∨
    (∃ origin program, Starts settings program origin ∧
      s.moved settings e = some (s.tasks.length, settling program s.books) ∧
      s'.tasks = s.tasks ++ [⟨origin, (settled program s.books).1⟩] ∧
      s'.reports = s.reports ++ reported s.tasks.length origin (settled program s.books).2 ∧
      s'.books = (settled program s.books).2) ∨
    (∃ k task op next reply books, s.tasks[k]? = some task ∧ task.program = .perform op next ∧
      Answered s.books k e op reply books ∧
      s.moved settings e = some (k, ⟨op, reply⟩ :: settling (next reply) books) ∧
      s'.tasks = s.tasks.set k ⟨task.origin, (settled (next reply) books).1⟩ ∧
      s'.reports = s.reports ++ reported k task.origin (settled (next reply) books).2 ∧
      s'.books = (settled (next reply) books).2) := by
  cases e with
  | command c =>
      obtain rfl := Option.some.inj h
      exact .inr (.inl ⟨.command c, _, rfl, rfl, rfl, rfl, rfl⟩)
  | created container name =>
      simp only [step] at h
      split at h
      · obtain rfl := Option.some.inj h
        exact .inl ⟨rfl, rfl, rfl, _, _, rfl⟩
      · cases h
  | docker container status timestamp action exitCode =>
      obtain ⟨name, hname, rfl⟩ := Option.map_eq_some_iff.mp h
      refine .inr (.inl ⟨.event container, _, ⟨_, rfl⟩, ?_, rfl, rfl, rfl⟩)
      rw [moved, hname]
      rfl
  | resume k answer =>
      obtain ⟨task, htask, hresume⟩ := Option.bind_eq_some_iff.mp h
      unfold resumeTask at hresume
      split at hresume
      · rename_i op next hprogram
        obtain rfl := Option.some.inj hresume
        refine .inr (.inr ⟨k, task, _, next, _, _, htask, hprogram, .performed answer op, ?_, rfl,
          rfl, rfl⟩)
        rw [moved, htask, Option.bind_some, hprogram]
      · rename_i c next hprogram
        obtain rfl := Option.some.inj hresume
        refine .inr (.inr ⟨k, task, _, next, _, _, htask, hprogram, .called answer c, ?_, rfl, rfl,
          rfl⟩)
        rw [moved, htask, Option.bind_some, hprogram]
      · cases hresume
      · cases hresume
  | reject k error =>
      obtain ⟨task, htask, hreject⟩ := Option.bind_eq_some_iff.mp h
      unfold rejectTask at hreject
      split at hreject
      · rename_i op next hprogram
        obtain ⟨reply, hreply, rfl⟩ := Option.map_eq_some_iff.mp hreject
        refine .inr (.inr ⟨k, task, _, next, reply, _, htask, hprogram,
          .rejected error op reply hreply, ?_, rfl, rfl, rfl⟩)
        rw [moved, htask, Option.bind_some, hprogram]
        simp only [hreply, Option.map_some]
      · cases hreject
      · cases hreject
      · cases hreject
  | updated n done =>
      obtain ⟨update, -, rfl⟩ := Option.map_eq_some_iff.mp h
      exact .inl ⟨rfl, rfl, rfl, _, _, rfl⟩

/-! ## Runs -/

/-- The task has ended or stands at an operation it has to wait for. -/
def Waits : Agent Unit → Prop
  | .perform op _ => memory op = none
  | .pure _ | .throw _ => True

theorem waits_settled (program : Agent Unit) (books : Books) :
    Waits (settled program books).1 := by
  have hsettle : ∀ (p : Agent Unit) (b : Books), Waits (p.settle memory b).1 := by
    intro p
    induction p with
    | pure a => exact fun _ => trivial
    | throw e => exact fun _ => trivial
    | perform op next ih =>
        intro b
        cases hact : memory op with
        | some act =>
            simp only [Program.settle, hact]
            exact ih _ _
        | none =>
            simp only [Program.settle, hact]
            exact hact
  exact hsettle program _

theorem emissionOf_of_waits {op : Op} {next : op.Reply → Agent Unit} (reply : op.Reply)
    (h : Waits (.perform op next)) : emissionOf ⟨op, reply⟩ = none := by
  match op with
  | .books (.emit emission) => cases h
  | .books .now | .books (.track ..) | .books .tracked | .books (.storeSnapshot _)
  | .books (.sendUpdate ..) | .books .turn | .books (.findMarker ..) | .books (.createMarker _)
  | .books (.deleteMarkers _) | .books (.deleteServices _) | .books (.updateServices ..)
  | .call _ => rfl

/-- The histories tell what was reported; tasks that do not exist have none. -/
structure Recorded (H : ℕ → History) (s : System) : Prop where
  reports : ∀ k, s.reportsOf k = emissions (H k)
  future : ∀ k, s.tasks.length ≤ k → H k = []
  waits : ∀ task ∈ s.tasks, Waits task.program

theorem recorded_start : Recorded (fun _ => []) {} where
  reports _ := rfl
  future _ _ := rfl
  waits task h := by cases h

theorem Recorded.step {H : ℕ → History} (hs : Recorded H s) {e : Happening}
    (h : System.step settings s e = some s') :
    Recorded (fun k => H k ++ s.doneBy settings k e) s' := by
  rcases moved_cases h with ⟨hmoved, htasks, hreports, -⟩ |
    ⟨origin, program, -, hmoved, htasks, hreports, -⟩ |
    ⟨j, task, op, next, reply, books, htask, hprogram, -, hmoved, htasks, hreports, -⟩
  · simp only [doneBy, hmoved, List.append_nil]
    refine ⟨fun k => ?_, fun k hk => hs.future k (htasks ▸ hk), htasks ▸ hs.waits⟩
    rw [reportsOf, hreports]
    exact hs.reports k
  · simp only [doneBy, hmoved]
    refine ⟨fun k => ?_, fun k hk => ?_, fun t ht => ?_⟩
    · rw [reportsOf_append k hreports, filter_reported, hs.reports, emissions_append,
        emitted_settled]
      split_ifs <;> rfl
    · rw [htasks, List.length_append, List.length_singleton] at hk
      rw [hs.future k (by omega), if_neg (by omega), List.append_nil]
    · rw [htasks] at ht
      rcases List.mem_append.mp ht with hold | hnew
      · exact hs.waits t hold
      · rw [List.mem_singleton.mp hnew]
        exact waits_settled _ _
  · have hmem := List.mem_of_getElem? htask
    have hwait := hs.waits task hmem
    rw [hprogram] at hwait
    simp only [doneBy, hmoved]
    refine ⟨fun k => ?_, fun k hk => ?_, fun t ht => ?_⟩
    · rw [reportsOf_append k hreports, filter_reported, hs.reports, emissions_append,
        emitted_settled]
      split_ifs
      · rw [emissions, emissions, emissions,
          List.filterMap_cons_none (emissionOf_of_waits reply hwait)]
      · rfl
    · rw [htasks, List.length_set] at hk
      have hj := (List.getElem?_eq_some_iff.mp htask).1
      rw [hs.future k hk, if_neg (by omega), List.append_nil]
    · rw [htasks] at ht
      rcases List.mem_or_eq_of_mem_set ht with hold | rfl
      · exact hs.waits t hold
      · exact waits_settled _ _

variable {Q : Type} {P : Protocol Op Op.Reply Q} {start : Q}
  {post : Except JsError Unit → Q → Prop} {applies : Origin → Prop}

/-- The tasks of some origins have kept to a protocol and will. -/
def Follow (P : Protocol Op Op.Reply Q) (start : Q) (post : Except JsError Unit → Q → Prop)
    (applies : Origin → Prop) (H : ℕ → History) (s : System) : Prop :=
  ∀ k task, s.tasks[k]? = some task → applies task.origin →
    P.Accepts start (H k) ∧ task.program.Obeys P (P.reach start (H k)) post

theorem Follow.step {H : ℕ → History} (hs : Recorded H s) (hf : Follow P start post applies H s)
    (hobeys : ∀ origin program, applies origin → Starts settings program origin →
      program.Obeys P start post) {e : Happening} (h : System.step settings s e = some s') :
    Follow P start post applies (fun k => H k ++ s.doneBy settings k e) s' := by
  rcases moved_cases h with ⟨hmoved, htasks, -, -⟩ |
    ⟨origin, program, hstarts, hmoved, htasks, -, -⟩ |
    ⟨j, task, op, next, reply, books, htask, hprogram, -, hmoved, htasks, -, -⟩
  · simp only [doneBy, hmoved, List.append_nil]
    intro k task hk
    exact hf k task (htasks ▸ hk)
  · simp only [doneBy, hmoved]
    intro k task hk happlies
    rw [htasks] at hk
    rcases Nat.lt_trichotomy k s.tasks.length with hlt | heq | hgt
    · rw [List.getElem?_append_left hlt] at hk
      dsimp only
      rw [if_neg (by omega), List.append_nil]
      exact hf k task hk happlies
    · subst heq
      rw [List.getElem?_concat_length] at hk
      obtain rfl := Option.some.inj hk
      dsimp only
      rw [hs.future _ le_rfl, if_pos rfl, List.nil_append]
      exact (hobeys origin program happlies hstarts).settle _
    · rw [List.getElem?_eq_none (by simp; omega)] at hk
      cases hk
  · simp only [doneBy, hmoved]
    intro k task' hk happlies
    rw [htasks] at hk
    rcases eq_or_ne j k with rfl | hne
    · rw [List.getElem?_set_self (List.getElem?_eq_some_iff.mp htask).1] at hk
      obtain rfl := Option.some.inj hk
      obtain ⟨haccepts, hprog⟩ := hf j task htask happlies
      rw [hprogram] at hprog
      obtain ⟨hrest, hleft⟩ := (hprog.2 reply).settle
        ({ books with emitted := [] } : Books)
      dsimp only
      rw [if_pos rfl, Protocol.reach_append]
      exact ⟨haccepts.append ⟨hprog.1, hrest⟩, hleft⟩
    · rw [List.getElem?_set_ne hne] at hk
      dsimp only
      rw [if_neg hne, List.append_nil]
      exact hf k task' hk happlies

/-- In every run the history of a task tells what the task reported, and is one
that a protocol accepts when the handler the task started with obeys it. -/
theorem history_run (hobeys : ∀ origin program, applies origin →
      Starts settings program origin → program.Obeys P start post)
    {events : List Happening} (hrun : (serviceSystem settings).run {} events = some s) :
    Recorded (fun k => history settings k {} events) s ∧
      Follow P start post applies (fun k => history settings k {} events) s := by
  have hfrom : ∀ (events : List Happening) (t : System) (H : ℕ → History), Recorded H t →
      Follow P start post applies H t → (serviceSystem settings).run t events = some s →
      Recorded (fun k => H k ++ history settings k t events) s ∧
        Follow P start post applies (fun k => H k ++ history settings k t events) s := by
    intro events
    induction events with
    | nil =>
        intro t H hrecorded hfollow hrun
        obtain rfl := Option.some.inj hrun
        simp only [history, List.append_nil]
        exact ⟨hrecorded, hfollow⟩
    | cons e rest ih =>
        intro t H hrecorded hfollow hrun
        obtain ⟨u, hu, hrest⟩ := Machine.run_cons hrun
        have hstep : System.step settings t e = some u := hu
        have htail := ih u _ (hrecorded.step hstep) (hfollow.step hrecorded hobeys hstep) hrest
        simpa only [history, hstep, List.append_assoc] using htail
  exact hfrom events {} (fun _ => []) recorded_start (fun k task hk => by cases hk) hrun

end System

end OpticsAgent.Tunnel
