import Mathlib
import OpticsAgent.Notify.NotifyService

/-!
Whether a connect request can be lost. A response deletes the row of the request
without looking at what is in it or at the status the Hub answered with. So it
takes a request along that was saved since it started, and one it never got
through to the Hub.
-/

namespace OpticsAgent.Notify

open OpticsAgent.Ecma OpticsAgent.Lib

variable (hubUrl : JsString)

/-! ## Lost requests -/

namespace NotifyTask

def IsResponse (task : NotifyTask) : Prop := ∃ accept, task.origin = .respond accept

def Finished (task : NotifyTask) : Prop :=
  match task.program with
  | .perform .. => False
  | _ => True

/-- The Hub answered with a status from 200 to 299. -/
def Answered (task : NotifyTask) : Prop := ∃ status, task.answer = some (.ok status) ∧
  200 ≤ status ∧ status ≤ 299

/-- The next thing the task does is to delete the row of the request. -/
def Clears (task : NotifyTask) : Prop :=
  ∃ next, task.program = .perform (.deleteMany pendingRequestKey) next

end NotifyTask

/-- A step deletes a request only for a response that was started while it was
waiting and that the Hub answered, and a request that was saved since a response
started still waits when the response is through. -/
structure LosesNothing (s : NotifyState) (e : NotifyEvent) (s' : NotifyState) : Prop where
  removed : s.pending ≠ none → s'.pending = none → ∃ k answer task, e = .proceed k answer ∧
    s.tasks[k]? = some task ∧ task.IsResponse ∧ task.opening = s.pending ∧ task.Answered
  kept : ∀ k answer task task', e = .proceed k answer → s.tasks[k]? = some task →
    s'.tasks[k]? = some task' → task.IsResponse → task'.Finished →
      ∀ request, s.pending = some request → task.savesBefore < request →
        s'.pending = some request

/-- When a response is about to clear the request that waits, the Hub answered
it, and nothing was saved since it started. -/
def InTime (s : NotifyState) : NotifyEvent → Prop
  | .proceed k _ => ∀ task, s.tasks[k]? = some task → task.Clears → s.pending ≠ none →
      task.Answered ∧ task.savesBefore = s.saves
  | _ => True

instance (task : NotifyTask) : Decidable task.Answered :=
  match h : task.answer with
  | some (.ok status) =>
      decidable_of_iff (200 ≤ status ∧ status ≤ 299) (by simp [NotifyTask.Answered, h])
  | some (.error _) => isFalse (by simp [NotifyTask.Answered, h])
  | none => isFalse (by simp [NotifyTask.Answered, h])

instance (task : NotifyTask) : Decidable task.Clears :=
  match h : task.program with
  | .perform (.deleteMany key) next =>
      decidable_of_iff (key = pendingRequestKey) (by
        constructor
        · rintro rfl
          exact ⟨next, h⟩
        · rintro ⟨_, hnext⟩
          cases h.symm.trans hnext
          rfl)
  | .perform (.findUnique _) _ | .perform (.upsert ..) _ | .perform (.fetch ..) _ | .pure _
  | .throw _ => isFalse (by
      rintro ⟨_, hnext⟩
      cases h.symm.trans hnext)

instance (s : NotifyState) (e : NotifyEvent) : Decidable (InTime s e) :=
  match e with
  | .proceed k _ =>
      match h : s.tasks[k]? with
      | none => isTrue (by
          intro task hk
          cases h.symm.trans hk)
      | some task =>
          decidable_of_iff (task.Clears → s.pending ≠ none →
            task.Answered ∧ task.savesBefore = s.saves) (by simp [InTime, h])
  | .save _ | .respond _ | .write .. => isTrue trivial

/-! ## What is known of a task -/

/-- Only saves write the row of the request, and only responses delete it. -/
def MayDo : Origin → NotifyOp → Prop
  | .save _, .upsert key _ => key = pendingRequestKey
  | .save _, _ => False
  | .respond _, .upsert .. => False
  | .respond _, .deleteMany key => key = pendingRequestKey
  | .respond _, _ => True

structure TaskInv (s : NotifyState) (task : NotifyTask) : Prop where
  order : task.savesBefore ≤ s.saves
  opening : task.opening = none ∨ task.opening = some task.savesBefore
  /-- A request that waits, with nothing saved since, was waiting at the start. -/
  waiting : task.savesBefore = s.saves → s.pending ≠ none → task.opening ≠ none
  program : task.program.All (MayDo task.origin)

def Inv (s : NotifyState) : Prop := ∀ task ∈ s.tasks, TaskInv s task

/-- What a step does to the number of saves and to the row. -/
structure Later (s s' : NotifyState) : Prop where
  saves : s.saves ≤ s'.saves
  waiting : s'.saves = s.saves → s'.pending ≠ none → s.pending ≠ none

theorem TaskInv.later {s s' : NotifyState} {task : NotifyTask} (h : TaskInv s task)
    (hlater : Later s s') : TaskInv s' task where
  order := h.order.trans hlater.saves
  opening := h.opening
  waiting := by
    intro hsame hpending
    have horder := h.order
    have hgrown := hlater.saves
    apply h.waiting (by omega)
    exact hlater.waiting (by omega) hpending
  program := h.program

theorem pending_ne_none {s : NotifyState} :
    s.pending ≠ none ↔ s.table pendingRequestKey ≠ none := by
  rw [NotifyState.pending]
  cases s.table pendingRequestKey <;> simp

theorem later_upsert (s : NotifyState) (key value : JsString) : Later s (s.upsert key value) := by
  by_cases hkey : key = pendingRequestKey
  · refine ⟨?_, fun hsame => ?_⟩
    · change s.saves ≤ if key = pendingRequestKey then s.saves + 1 else s.saves
      rw [if_pos hkey]
      omega
    · change (if key = pendingRequestKey then s.saves + 1 else s.saves) = s.saves at hsame
      rw [if_pos hkey] at hsame
      omega
  · refine ⟨?_, fun _ hpending => ?_⟩
    · change s.saves ≤ if key = pendingRequestKey then s.saves + 1 else s.saves
      rw [if_neg hkey]
    · rw [pending_ne_none] at hpending ⊢
      change Function.update s.table key (some value) pendingRequestKey ≠ none at hpending
      rwa [Function.update_of_ne (Ne.symm hkey)] at hpending

theorem later_deleteMany (s : NotifyState) (key : JsString) : Later s (s.deleteMany key) := by
  refine ⟨le_refl _, fun _ hpending => ?_⟩
  rw [pending_ne_none] at hpending ⊢
  by_cases hkey : key = pendingRequestKey
  · exact (hpending (by simp [NotifyState.deleteMany, hkey])).elim
  · change Function.update s.table key none pendingRequestKey ≠ none at hpending
    rwa [Function.update_of_ne (Ne.symm hkey)] at hpending

theorem mayDo_save (payload : ConnectRequestPayload) :
    (savePendingRequest payload).All (MayDo (.save payload)) :=
  .ask rfl

theorem mayDo_respond (accept : Bool) :
    (respondToRequest hubUrl accept).All (MayDo (.respond accept)) := by
  refine .bind (.ask trivial) fun agentCode => ?_
  cases agentCode with
  | none => exact .throw _
  | some agentCode =>
      refine .bind (.ask trivial) fun agentUuid => ?_
      cases agentUuid with
      | none => exact .throw _
      | some agentUuid =>
          refine .bind (.ask trivial) fun answer => ?_
          cases answer with
          | error e => exact .throw _
          | ok status => exact .ask rfl

/-! ## Steps -/

theorem proceed_cases {s s' : NotifyState} {k : ℕ} {task : NotifyTask} {answer : FetchAnswer}
    (h : s.proceed k task answer = some s') :
    (∃ key next, task.program = .perform (.findUnique key) next ∧
      s' = s.goOn k task (next (s.table key))) ∨
    (∃ key value next, task.program = .perform (.upsert key value) next ∧
      s' = (s.upsert key value).goOn k task (next ())) ∨
    (∃ key next, task.program = .perform (.deleteMany key) next ∧
      s' = (s.deleteMany key).goOn k task (next ())) ∨
    (∃ url body next, task.program = .perform (.fetch url body) next ∧
      s' = s.goOn k { task with answer := some answer } (next answer)) := by
  unfold NotifyState.proceed at h
  cases hprogram : task.program with
  | pure a => rw [hprogram] at h; cases h
  | throw e => rw [hprogram] at h; cases h
  | perform op next =>
      rw [hprogram] at h
      cases op with
      | findUnique key => exact .inl ⟨key, next, rfl, (Option.some.inj h).symm⟩
      | upsert key value => exact .inr (.inl ⟨key, value, next, rfl, (Option.some.inj h).symm⟩)
      | deleteMany key => exact .inr (.inr (.inl ⟨key, next, rfl, (Option.some.inj h).symm⟩))
      | fetch url body => exact .inr (.inr (.inr ⟨url, body, next, rfl, (Option.some.inj h).symm⟩))

/-- A task that goes on keeps what it knows of its start. -/
theorem Inv.goOn {s mid : NotifyState} {k : ℕ} {task : NotifyTask} {op : NotifyOp}
    {next : op.Reply → NotifyProgram} (hs : Inv s) (hlater : Later s mid)
    (htasks : mid.tasks = s.tasks) (htask : task ∈ s.tasks)
    (hprogram : task.program = .perform op next) (reply : op.Reply)
    (answer : Option FetchAnswer) :
    Inv (mid.goOn k { task with answer := answer } (next reply)) := by
  have hall := (hs task htask).program
  rw [hprogram] at hall
  have hlater' : Later s (mid.goOn k { task with answer := answer } (next reply)) :=
    ⟨hlater.saves, hlater.waiting⟩
  intro other hother
  rcases List.mem_or_eq_of_mem_set hother with hold | rfl
  · rw [htasks] at hold
    exact (hs other hold).later hlater'
  · have hbefore := (hs task htask).later hlater'
    exact ⟨hbefore.order, hbefore.opening, hbefore.waiting, hall.2 reply⟩

theorem Later.refl (s : NotifyState) : Later s s := ⟨le_refl _, fun _ h => h⟩

theorem inv_start {s : NotifyState} (hs : Inv s) {origin : Origin} {program : NotifyProgram}
    (hprogram : program.All (MayDo origin)) : Inv (s.start origin program) := by
  intro task htask
  rcases List.mem_append.mp htask with hold | hnew
  · have hbefore := hs task hold
    exact ⟨hbefore.order, hbefore.opening, hbefore.waiting, hbefore.program⟩
  · rw [List.mem_singleton.mp hnew]
    refine ⟨le_refl _, ?_, fun _ hpending => hpending, hprogram⟩
    change s.pending = none ∨ s.pending = some s.saves
    rw [NotifyState.pending]
    cases s.table pendingRequestKey <;> simp

theorem inv_step {s s' : NotifyState} {e : NotifyEvent} (hs : Inv s)
    (h : (notifySystem hubUrl).step s e = some s') : Inv s' := by
  cases e with
  | save payload =>
      obtain rfl := Option.some.inj h
      exact inv_start hs (mayDo_save payload)
  | respond accept =>
      obtain rfl := Option.some.inj h
      exact inv_start hs (mayDo_respond hubUrl accept)
  | write key value =>
      change (if key = pendingRequestKey then none else some (s.upsert key value)) = some s' at h
      split_ifs at h
      obtain rfl := Option.some.inj h
      exact fun task htask => (hs task htask).later (later_upsert s key value)
  | proceed k answer =>
      obtain ⟨task, hk, hproceed⟩ := Option.bind_eq_some_iff.mp h
      have htask := List.mem_of_getElem? hk
      rcases proceed_cases hproceed with ⟨key, next, hprogram, rfl⟩ |
        ⟨key, value, next, hprogram, rfl⟩ | ⟨key, next, hprogram, rfl⟩ |
        ⟨url, body, next, hprogram, rfl⟩
      · exact hs.goOn (Later.refl s) rfl htask hprogram _ task.answer
      · exact hs.goOn (later_upsert s key value) rfl htask hprogram () task.answer
      · exact hs.goOn (later_deleteMany s key) rfl htask hprogram () task.answer
      · exact hs.goOn (Later.refl s) rfl htask hprogram answer (some answer)

theorem pending_eq_saves {s : NotifyState} (h : s.pending ≠ none) : s.pending = some s.saves := by
  rw [NotifyState.pending] at h ⊢
  cases htable : s.table pendingRequestKey with
  | none => simp [htable] at h
  | some text => rfl

theorem pending_upsert {s : NotifyState} (h : s.pending ≠ none) (key value : JsString) :
    (s.upsert key value).pending ≠ none := by
  rw [pending_ne_none] at h ⊢
  by_cases hkey : key = pendingRequestKey
  · simp [NotifyState.upsert, hkey]
  · simpa [NotifyState.upsert, Function.update_of_ne (Ne.symm hkey)] using h

/-- The request that waits goes away in a step that clears it, and in no other. -/
theorem clears_of_removed {s s' : NotifyState} {e : NotifyEvent} (hs : Inv s)
    (h : (notifySystem hubUrl).step s e = some s') (hpending : s.pending ≠ none)
    (hgone : s'.pending = none) :
    ∃ k answer task, e = .proceed k answer ∧ s.tasks[k]? = some task ∧ task.IsResponse ∧
      task.Clears := by
  cases e with
  | save payload =>
      obtain rfl := Option.some.inj h
      exact absurd hgone hpending
  | respond accept =>
      obtain rfl := Option.some.inj h
      exact absurd hgone hpending
  | write key value =>
      change (if key = pendingRequestKey then none else some (s.upsert key value)) = some s' at h
      split_ifs at h
      obtain rfl := Option.some.inj h
      exact absurd hgone (pending_upsert hpending key value)
  | proceed k answer =>
      obtain ⟨task, hk, hproceed⟩ := Option.bind_eq_some_iff.mp h
      rcases proceed_cases hproceed with ⟨key, next, hprogram, rfl⟩ |
        ⟨key, value, next, hprogram, rfl⟩ | ⟨key, next, hprogram, rfl⟩ |
        ⟨url, body, next, hprogram, rfl⟩
      · exact absurd hgone hpending
      · exact absurd hgone (pending_upsert hpending key value)
      · have hmay := (hs task (List.mem_of_getElem? hk)).program
        rw [hprogram] at hmay
        cases horigin : task.origin with
        | save payload =>
            rw [horigin] at hmay
            exact hmay.1.elim
        | respond accept =>
            rw [horigin] at hmay
            obtain rfl : key = pendingRequestKey := hmay.1
            exact ⟨k, answer, task, rfl, hk, ⟨accept, horigin⟩, next, hprogram⟩
      · exact absurd hgone hpending

/-- A response saves nothing. -/
theorem saves_of_response {s s' : NotifyState} {k : ℕ} {task : NotifyTask} {answer : FetchAnswer}
    (hs : Inv s) (hk : s.tasks[k]? = some task) (hresponse : task.IsResponse)
    (h : s.proceed k task answer = some s') : s'.saves = s.saves := by
  rcases proceed_cases h with ⟨key, next, hprogram, rfl⟩ |
    ⟨key, value, next, hprogram, rfl⟩ | ⟨key, next, hprogram, rfl⟩ |
    ⟨url, body, next, hprogram, rfl⟩
  · rfl
  · have hmay := (hs task (List.mem_of_getElem? hk)).program
    obtain ⟨accept, horigin⟩ := hresponse
    rw [hprogram, horigin] at hmay
    exact hmay.1.elim
  · rfl
  · rfl

/-- A step that clears a request in time clears the one its response was for. -/
theorem losesNothing_of_inTime {s s' : NotifyState} {e : NotifyEvent} (hs : Inv s)
    (hok : InTime s e) (h : (notifySystem hubUrl).step s e = some s') : LosesNothing s e s' where
  removed := by
    intro hpending hgone
    obtain ⟨k, answer, task, rfl, hk, hresponse, hclears⟩ :=
      clears_of_removed hubUrl hs h hpending hgone
    obtain ⟨hanswered, hsaves⟩ := hok task hk hclears hpending
    have hinv := hs task (List.mem_of_getElem? hk)
    have hopening := hinv.opening.resolve_left (hinv.waiting hsaves hpending)
    refine ⟨k, answer, task, rfl, hk, hresponse, ?_, hanswered⟩
    rw [hopening, hsaves, pending_eq_saves hpending]
  kept := by
    rintro k answer task _ rfl hk - hresponse - request hrequest hlate
    have hpending : s.pending ≠ none := by
      rw [hrequest]
      exact Option.some_ne_none request
    have hnumber : s.saves = request :=
      Option.some.inj ((pending_eq_saves hpending).symm.trans hrequest)
    obtain ⟨_, hk', hproceed⟩ := Option.bind_eq_some_iff.mp h
    obtain rfl := Option.some.inj (hk.symm.trans hk')
    by_cases hgone : s'.pending = none
    · obtain ⟨_, _, _, hevent, hk'', -, hclears⟩ := clears_of_removed hubUrl hs h hpending hgone
      obtain ⟨rfl, -⟩ := NotifyEvent.proceed.inj hevent
      obtain rfl := Option.some.inj (hk.symm.trans hk'')
      have hsaves := (hok task hk hclears hpending).2
      omega
    · rw [pending_eq_saves hgone, saves_of_response hs hk hresponse hproceed, hnumber]

theorem losesNothing_iff {s : NotifyState} (hs : Inv s) (e : NotifyEvent) :
    (∀ s', (notifySystem hubUrl).step s e = some s' → LosesNothing s e s') ↔ InTime s e := by
  constructor
  · intro h
    cases e with
    | save payload => trivial
    | respond accept => trivial
    | write key value => trivial
    | proceed k answer =>
        rintro task hk ⟨next, hprogram⟩ hpending
        have hstep : (notifySystem hubUrl).step s (.proceed k answer) =
            some ((s.deleteMany pendingRequestKey).goOn k task (next ())) := by
          apply Option.bind_eq_some_iff.mpr
          refine ⟨task, hk, ?_⟩
          rw [NotifyState.proceed, hprogram]
        have hgone : ((s.deleteMany pendingRequestKey).goOn k task (next ())).pending = none := by
          simp [NotifyState.pending, NotifyState.goOn, NotifyState.deleteMany]
        obtain ⟨_, _, _, hevent, hk', -, hopening, hanswered⟩ := (h _ hstep).removed hpending hgone
        obtain ⟨rfl, -⟩ := NotifyEvent.proceed.inj hevent
        obtain rfl := Option.some.inj (hk.symm.trans hk')
        refine ⟨hanswered, ?_⟩
        rw [pending_eq_saves hpending] at hopening
        rcases (hs task (List.mem_of_getElem? hk)).opening with hnone | hsome
        · cases hnone.symm.trans hopening
        · exact Option.some.inj (hsome.symm.trans hopening)
  · exact fun hok s' h => losesNothing_of_inTime hubUrl hs hok h

/-- No request is lost in a run exactly when every response that clears one was
answered by the Hub and nothing was saved since it started. -/
theorem pending_kept_iff (table : JsString → Option JsString) (events : List NotifyEvent) :
    (notifySystem hubUrl).Along
        (fun s e => ∀ s', (notifySystem hubUrl).step s e = some s' → LosesNothing s e s')
        { table := table } events ↔
      (notifySystem hubUrl).Along InTime { table := table } events := by
  apply Machine.along_congr fun _ _ _ hs _ => inv_step hubUrl hs
  · exact fun s e hs => losesNothing_iff hubUrl hs e
  · exact fun task htask => absurd htask List.not_mem_nil

/-! ## Two lost requests -/

/-- An agent with an identity, where a request waits. -/
def waitingTable : JsString → Option JsString := fun key =>
  if key = pendingRequestKey then some (js "\x7b\x7d")
  else if key = agentCodeKey then some (js "A-1")
  else if key = agentUuidKey then some (js "u-1")
  else none

def laterRequest : ConnectRequestPayload :=
  ⟨js "kim", js "lab", js "2026-01-05", .ofInt 7, js "2026-01-06"⟩

/-- The Hub refuses the response. -/
def refusedRun : List NotifyEvent :=
  [.respond true, .proceed 0 (.ok 0), .proceed 0 (.ok 0), .proceed 0 (.ok 500), .proceed 0 (.ok 0)]

/-- The Hub accepts the response, and another request is saved meanwhile. -/
def crossedRun : List NotifyEvent :=
  [.respond true, .proceed 0 (.ok 0), .proceed 0 (.ok 0), .save laterRequest, .proceed 1 (.ok 0),
    .proceed 0 (.ok 201), .proceed 0 (.ok 0)]

/-- A run that deletes a request nobody answered in time. -/
theorem not_kept_of_late {events : List NotifyEvent}
    (hlate : ¬ (notifySystem (js "https://hub")).Along InTime { table := waitingTable } events) :
    ¬ (notifySystem (js "https://hub")).Along
      (fun s e => ∀ s', (notifySystem (js "https://hub")).step s e = some s' →
        LosesNothing s e s') { table := waitingTable } events := by
  intro hkept
  apply hlate
  exact (Machine.along_congr (fun _ _ _ hs _ => inv_step _ hs)
    (fun s e hs => losesNothing_iff _ hs e)
    (fun task htask => absurd htask List.not_mem_nil) events).mp hkept

/-- In both runs a request is deleted that nobody answered. -/
theorem pending_kept_fails :
    ¬ (notifySystem (js "https://hub")).Along
        (fun s e => ∀ s', (notifySystem (js "https://hub")).step s e = some s' →
          LosesNothing s e s') { table := waitingTable } refusedRun ∧
      ¬ (notifySystem (js "https://hub")).Along
        (fun s e => ∀ s', (notifySystem (js "https://hub")).step s e = some s' →
          LosesNothing s e s') { table := waitingTable } crossedRun := by
  have hlate : ∀ events ∈ [refusedRun, crossedRun],
      ¬ (notifySystem (js "https://hub")).Along InTime { table := waitingTable } events := by
    decide +kernel
  exact ⟨not_kept_of_late (hlate _ List.mem_cons_self),
    not_kept_of_late (hlate _ (List.mem_cons_of_mem _ List.mem_cons_self))⟩

end OpticsAgent.Notify
