import Mathlib
import OpticsAgent.Ecma.Text
import OpticsAgent.Lib.Machine

/-!
The agent's identity: the uuid and the signing secret of `TunnelService`, in
memory and in the `AgentInfo` table. A `register` response runs up to its first
`await`; from then on the write to the table and the rest of the handler are
events of their own, so handlers interleave and a write may take effect late. A
crash ends every handler, and the next process loads what the table holds.
-/

namespace OpticsAgent.Tunnel

open OpticsAgent.Ecma OpticsAgent.Lib

structure Identity where
  uuid : Option JsString
  secret : Option JsString
  deriving DecidableEq

/-- The `data` of a register response with code `ok`. -/
structure RegisterData where
  uuid : JsString
  signingSecret : Option JsString
  code : JsString
  ip : JsString
  deriving DecidableEq

/-- The secret of the response, where it is truthy. -/
def RegisterData.newSecret (data : RegisterData) : Option JsString :=
  data.signingSecret.filter fun secret => secret ≠ []

/-- The keys of `AgentInfo` the handler writes. -/
inductive InfoKey where
  | agentUuid
  | agentSigningSecret
  | agentCode
  | agentIp
  deriving DecidableEq

def RegisterData.value (data : RegisterData) : InfoKey → JsString
  | .agentUuid => data.uuid
  | .agentSigningSecret => data.newSecret.getD []
  | .agentCode => data.code
  | .agentIp => data.ip

/-- Where a handler stands: at the `await` of an upsert that has taken effect or
not, or at its end. -/
inductive Progress where
  | saving (key : InfoKey) (saved : Bool)
  | finished
  deriving DecidableEq

structure Handler where
  data : RegisterData
  progress : Progress
  deriving DecidableEq

structure IdentityState where
  memory : Identity
  info : InfoKey → Option JsString
  /-- In the order in which their responses came. -/
  handlers : List Handler := []
  /-- The uuids `initPreconnectPool` was called with. -/
  pools : List (Option JsString) := []
  /-- The initial pair and the pairs issued so far. -/
  known : List Identity
  crashed : Bool := false

namespace IdentityState

def stored (s : IdentityState) : Identity := ⟨s.info .agentUuid, s.info .agentSigningSecret⟩

/-- After `onModuleInit` has loaded the identity. -/
def load (info : InfoKey → Option JsString) : IdentityState where
  memory := ⟨info .agentUuid, info .agentSigningSecret⟩
  info := info
  known := [⟨info .agentUuid, info .agentSigningSecret⟩]

/-- The handler from the test of the secret on. -/
def saveSecret (memory : Identity) (data : RegisterData) : Identity × Progress :=
  match data.newSecret with
  | some secret => ({ memory with secret := some secret }, .saving .agentSigningSecret false)
  | none => (memory, .saving .agentCode false)

/-- The handler from its start. -/
def saveUuid (memory : Identity) (data : RegisterData) : Identity × Progress :=
  if memory.uuid ≠ some data.uuid then
    ({ memory with uuid := some data.uuid }, .saving .agentUuid false)
  else saveSecret memory data

def receive (s : IdentityState) (data : RegisterData) : IdentityState :=
  let (memory, progress) := saveUuid s.memory data
  { s with
    memory
    handlers := s.handlers ++ [⟨data, progress⟩]
    known := if data.newSecret.isSome then s.known ++ [⟨some data.uuid, data.newSecret⟩]
      else s.known }

/-- The upsert of a handler takes effect. -/
def commit (s : IdentityState) (i : ℕ) (h : Handler) (key : InfoKey) : IdentityState :=
  { s with
    info := Function.update s.info key (some (h.data.value key))
    handlers := s.handlers.set i ⟨h.data, .saving key true⟩ }

/-- The handler goes on behind the `await` of an upsert. -/
def resume (s : IdentityState) (i : ℕ) (h : Handler) (key : InfoKey) : IdentityState :=
  match key with
  | .agentUuid =>
      let (memory, progress) := saveSecret s.memory h.data
      { s with memory, handlers := s.handlers.set i ⟨h.data, progress⟩ }
  | .agentSigningSecret =>
      { s with handlers := s.handlers.set i ⟨h.data, .saving .agentCode false⟩ }
  | .agentCode => { s with handlers := s.handlers.set i ⟨h.data, .saving .agentIp false⟩ }
  | .agentIp =>
      { s with
        handlers := s.handlers.set i ⟨h.data, .finished⟩
        pools := s.pools ++ [s.memory.uuid] }

/-- The process ends and the next one loads the identity. -/
def crash (s : IdentityState) : IdentityState :=
  { s with memory := s.stored, handlers := [], crashed := true }

end IdentityState

inductive IdentityEvent where
  | register (data : RegisterData)
  | commit (handler : ℕ)
  | resume (handler : ℕ)
  | crash
  deriving DecidableEq

def identityStep (s : IdentityState) : IdentityEvent → Option IdentityState
  | .register data => some (s.receive data)
  | .commit i =>
      match s.handlers[i]? with
      | some h =>
          match h.progress with
          | .saving key false => some (s.commit i h key)
          | _ => none
      | none => none
  | .resume i =>
      match s.handlers[i]? with
      | some h =>
          match h.progress with
          | .saving key true => some (s.resume i h key)
          | _ => none
      | none => none
  | .crash => some s.crash

def identityService : Machine IdentityState IdentityEvent where
  step := identityStep

/-! ## Which secret memory and the table hold -/

/-- The response of the handler issued a pair. -/
def Handler.issues (h : Handler) : Bool := h.data.newSecret.isSome

/-- The table has had the secret of the handler. -/
def Handler.savedSecret (h : Handler) : Bool :=
  h.issues && (h.progress ≠ .saving .agentUuid false ∧ h.progress ≠ .saving .agentUuid true ∧
    h.progress ≠ .saving .agentSigningSecret false)

/-- The secret of the last handler in a class. -/
def lastSecret (p : Handler → Bool) (base : Option JsString) (handlers : List Handler) :
    Option JsString :=
  handlers.foldl (fun secret h => if p h then h.data.newSecret else secret) base

theorem lastSecret_cons (p : Handler → Bool) (base : Option JsString) (h : Handler)
    (handlers : List Handler) :
    lastSecret p base (h :: handlers) =
      lastSecret p (if p h then h.data.newSecret else base) handlers := rfl

theorem lastSecret_append (p : Handler → Bool) (base : Option JsString)
    (front back : List Handler) :
    lastSecret p base (front ++ back) = lastSecret p (lastSecret p base front) back := by
  exact List.foldl_append

theorem lastSecret_of_none {p : Handler → Bool} {handlers : List Handler}
    (h : ∀ x ∈ handlers, p x = false) (base : Option JsString) :
    lastSecret p base handlers = base := by
  induction handlers with
  | nil => rfl
  | cons x rest ih =>
      rw [lastSecret_cons, if_neg (by simp [h x List.mem_cons_self])]
      exact ih fun y hy => h y (List.mem_cons_of_mem x hy)

theorem lastSecret_congr {p q : Handler → Bool} {handlers : List Handler}
    (h : ∀ x ∈ handlers, p x = q x) (base : Option JsString) :
    lastSecret p base handlers = lastSecret q base handlers := by
  induction handlers generalizing base with
  | nil => rfl
  | cons x rest ih =>
      rw [lastSecret_cons, lastSecret_cons, h x List.mem_cons_self]
      exact ih (fun y hy => h y (List.mem_cons_of_mem x hy)) _

theorem lastSecret_cases (p : Handler → Bool) (base : Option JsString)
    (handlers : List Handler) :
    lastSecret p base handlers = base ∨
      ∃ h ∈ handlers, p h = true ∧ lastSecret p base handlers = h.data.newSecret := by
  induction handlers using List.reverseRecOn with
  | nil => exact Or.inl rfl
  | append_singleton front h ih =>
      rw [lastSecret_append, lastSecret_cons]
      simp only [lastSecret, List.foldl_nil] at ih ⊢
      split_ifs with hp
      · exact Or.inr ⟨h, by simp, hp, rfl⟩
      · rcases ih with hbase | ⟨x, hx, hpx, heq⟩
        · exact Or.inl hbase
        · exact Or.inr ⟨x, List.mem_append_left _ hx, hpx, heq⟩

/-- A handler advances within its class. -/
theorem lastSecret_set {p : Handler → Bool} {handlers : List Handler} {i : ℕ} {h : Handler}
    (hget : handlers[i]? = some h) (progress : Progress) (hp : p ⟨h.data, progress⟩ = p h)
    (base : Option JsString) :
    lastSecret p base (handlers.set i ⟨h.data, progress⟩) = lastSecret p base handlers := by
  obtain ⟨hi, rfl⟩ := List.getElem?_eq_some_iff.mp hget
  have hsplit : handlers = handlers.take i ++ handlers[i] :: handlers.drop (i + 1) := by simp
  rw [List.set_eq_take_append_cons_drop, if_pos hi]
  conv_rhs => rw [hsplit]
  rw [lastSecret_append, lastSecret_append, lastSecret_cons, lastSecret_cons, hp]

/-- A handler joins the class behind which no other handler is in it. -/
theorem lastSecret_set_last {p : Handler → Bool} {handlers : List Handler} {i : ℕ}
    {h h' : Handler} (hget : handlers[i]? = some h) (hp : p h' = true)
    (hbehind : ∀ x ∈ handlers.drop (i + 1), p x = false) (base : Option JsString) :
    lastSecret p base (handlers.set i h') = h'.data.newSecret := by
  obtain ⟨hi, -⟩ := List.getElem?_eq_some_iff.mp hget
  rw [List.set_eq_take_append_cons_drop, if_pos hi, lastSecret_append, lastSecret_cons,
    if_pos hp]
  exact lastSecret_of_none hbehind _

/-! ## Runs in which the identity stays whole -/

/-- A response carries the uuid in memory, and a secret reaches the table before
the secrets of later responses do. -/
def Undivided (s : IdentityState) : IdentityEvent → Prop
  | .register data => some data.uuid = s.memory.uuid
  | .commit i =>
      ∀ h, s.handlers[i]? = some h → h.progress = .saving .agentSigningSecret false →
        ∀ x ∈ s.handlers.drop (i + 1), x.savedSecret = false
  | .resume _ => True
  | .crash => True

instance (s : IdentityState) (event : IdentityEvent) : Decidable (Undivided s event) :=
  match event with
  | .register data => inferInstanceAs (Decidable (some data.uuid = s.memory.uuid))
  | .commit i =>
      match hget : s.handlers[i]? with
      | none => isTrue (by simp [Undivided, hget])
      | some h =>
          decidable_of_iff (h.progress = .saving .agentSigningSecret false →
            (s.handlers.drop (i + 1)).all (fun x => !x.savedSecret) = true)
            (by simp [Undivided, hget])
  | .resume _ => isTrue trivial
  | .crash => isTrue trivial

/-- A handler that only works on the secret of the uuid in memory. -/
structure HandlerOk (agentUuid : Option JsString) (known : List Identity) (h : Handler) :
    Prop where
  uuid : some h.data.uuid = agentUuid
  keepsUuid : ∀ saved, h.progress ≠ .saving .agentUuid saved
  issues : ∀ saved, h.progress = .saving .agentSigningSecret saved → h.issues = true
  known : h.issues = true → ⟨agentUuid, h.data.newSecret⟩ ∈ known

/-- Memory and the table hold secrets of the one uuid, each the latest it has
seen. -/
structure Whole (s : IdentityState) : Prop where
  uuid : s.info .agentUuid = s.memory.uuid
  handlers : ∀ h ∈ s.handlers, HandlerOk s.memory.uuid s.known h
  secrets : ∃ base, ⟨s.memory.uuid, base⟩ ∈ s.known ∧
    s.memory.secret = lastSecret Handler.issues base s.handlers ∧
    s.info .agentSigningSecret = lastSecret Handler.savedSecret base s.handlers
  latest : s.crashed = false → s.known.getLast? = some s.memory

theorem Whole.lastSecret_known {s : IdentityState} (h : Whole s) {p : Handler → Bool}
    (hp : ∀ x, p x = true → x.issues = true) {base : Option JsString}
    (hbase : ⟨s.memory.uuid, base⟩ ∈ s.known) :
    ⟨s.memory.uuid, lastSecret p base s.handlers⟩ ∈ s.known := by
  rcases lastSecret_cases p base s.handlers with heq | ⟨x, hx, hpx, heq⟩
  · rwa [heq]
  · rw [heq]
    exact (h.handlers x hx).known (hp x hpx)

theorem issues_of_savedSecret {h : Handler} (hsaved : h.savedSecret = true) :
    h.issues = true := by
  exact (Bool.and_eq_true_iff.mp hsaved).1

theorem Whole.memory_known {s : IdentityState} (h : Whole s) : s.memory ∈ s.known := by
  obtain ⟨base, hbase, hmemory, -⟩ := h.secrets
  have hknown := h.lastSecret_known (fun _ hx => hx) hbase
  rwa [← hmemory] at hknown

theorem Whole.stored_known {s : IdentityState} (h : Whole s) : s.stored ∈ s.known := by
  obtain ⟨base, hbase, -, hinfo⟩ := h.secrets
  have hknown := h.lastSecret_known (fun _ hx => issues_of_savedSecret hx) hbase
  rwa [← hinfo, ← h.uuid] at hknown

/-- One handler advances; its data and its classes stay. -/
theorem Whole.set_handler {s : IdentityState} (hs : Whole s) {i : ℕ} {h : Handler}
    (hget : s.handlers[i]? = some h) (progress : Progress)
    (huuid : ∀ saved, progress ≠ .saving .agentUuid saved)
    (hsecret : ∀ saved, progress = .saving .agentSigningSecret saved → h.issues = true)
    (hsaved : Handler.savedSecret ⟨h.data, progress⟩ = h.savedSecret) :
    Whole { s with handlers := s.handlers.set i ⟨h.data, progress⟩ } := by
  have hmem : h ∈ s.handlers := List.mem_of_getElem? hget
  have hok := hs.handlers h hmem
  refine ⟨hs.uuid, ?_, ?_, hs.latest⟩
  · intro x hx
    rcases List.mem_or_eq_of_mem_set hx with hold | rfl
    · have hx := hs.handlers x hold
      exact ⟨hx.uuid, hx.keepsUuid, hx.issues, hx.known⟩
    · exact ⟨hok.uuid, huuid, hsecret, hok.known⟩
  · obtain ⟨base, hbase, hmemory, hinfo⟩ := hs.secrets
    exact ⟨base, hbase, hmemory.trans (lastSecret_set hget progress rfl base).symm,
      hinfo.trans (lastSecret_set hget progress hsaved base).symm⟩

theorem Whole.receive {s : IdentityState} (hs : Whole s) {data : RegisterData}
    (hdata : some data.uuid = s.memory.uuid) : Whole (s.receive data) := by
  obtain ⟨base, hbase, hmemory, hinfo⟩ := hs.secrets
  cases hsecret : data.newSecret with
  | none =>
      have hnew : s.receive data =
          { s with handlers := s.handlers ++ [⟨data, .saving .agentCode false⟩] } := by
        simp [IdentityState.receive, IdentityState.saveUuid, IdentityState.saveSecret, hdata,
          hsecret]
      rw [hnew]
      refine ⟨hs.uuid, ?_, ⟨base, hbase, ?_, ?_⟩, hs.latest⟩
      · intro x hx
        rcases List.mem_append.mp hx with hold | hlast
        · have hx := hs.handlers x hold
          exact ⟨hx.uuid, hx.keepsUuid, hx.issues, hx.known⟩
        · obtain rfl := List.mem_singleton.mp hlast
          exact ⟨hdata, by simp, by simp, by simp [Handler.issues, hsecret]⟩
      · rw [lastSecret_append, ← hmemory]
        simp [lastSecret, Handler.issues, hsecret]
      · rw [lastSecret_append, ← hinfo]
        simp [lastSecret, Handler.savedSecret, Handler.issues, hsecret]
  | some secret =>
      have hnew : s.receive data =
          { s with
            memory := ⟨s.memory.uuid, some secret⟩
            handlers := s.handlers ++ [⟨data, .saving .agentSigningSecret false⟩]
            known := s.known ++ [⟨s.memory.uuid, some secret⟩] } := by
        simp [IdentityState.receive, IdentityState.saveUuid, IdentityState.saveSecret, hdata,
          hsecret]
      rw [hnew]
      refine ⟨hs.uuid, ?_, ⟨base, List.mem_append_left _ hbase, ?_, ?_⟩, by simp⟩
      · intro x hx
        rcases List.mem_append.mp hx with hold | hlast
        · have hx := hs.handlers x hold
          exact ⟨hx.uuid, hx.keepsUuid, hx.issues, fun h => List.mem_append_left _ (hx.known h)⟩
        · obtain rfl := List.mem_singleton.mp hlast
          refine ⟨hdata, by simp, by simp [Handler.issues, hsecret], fun _ => ?_⟩
          simp [hsecret]
      · rw [lastSecret_append]
        simp [lastSecret, Handler.issues, hsecret]
      · rw [lastSecret_append, ← hinfo]
        simp [lastSecret, Handler.savedSecret]

theorem Whole.commit {s : IdentityState} (hs : Whole s) {i : ℕ} {h : Handler} {key : InfoKey}
    (hget : s.handlers[i]? = some h) (hprogress : h.progress = .saving key false)
    (horder : h.progress = .saving .agentSigningSecret false →
      ∀ x ∈ s.handlers.drop (i + 1), x.savedSecret = false) :
    Whole (s.commit i h key) := by
  have hmem : h ∈ s.handlers := List.mem_of_getElem? hget
  have hok := hs.handlers h hmem
  cases key with
  | agentUuid => exact absurd hprogress (hok.keepsUuid false)
  | agentSigningSecret =>
      have hissues := hok.issues false hprogress
      obtain ⟨base, hbase, hmemory, -⟩ := hs.secrets
      refine ⟨?_, ?_, ⟨base, hbase, ?_, ?_⟩, hs.latest⟩
      · simpa [IdentityState.commit] using hs.uuid
      · intro x hx
        rcases List.mem_or_eq_of_mem_set hx with hold | rfl
        · have hx := hs.handlers x hold
          exact ⟨hx.uuid, hx.keepsUuid, hx.issues, hx.known⟩
        · exact ⟨hok.uuid, by simp, fun _ _ => hissues, hok.known⟩
      · exact hmemory.trans
          (lastSecret_set hget (.saving .agentSigningSecret true) rfl base).symm
      · obtain ⟨secret, hsecret⟩ := Option.isSome_iff_exists.mp hissues
        rw [IdentityState.commit, lastSecret_set_last hget _ (horder hprogress)]
        · simp [RegisterData.value, hsecret]
        · simp [Handler.savedSecret, Handler.issues, hsecret]
  | agentCode =>
      have hset := hs.set_handler hget (.saving .agentCode true) (by simp) (by simp)
        (by simp [Handler.savedSecret, Handler.issues, hprogress])
      exact ⟨by simpa [IdentityState.commit] using hset.uuid, hset.handlers,
        by simpa [IdentityState.commit] using hset.secrets, hset.latest⟩
  | agentIp =>
      have hset := hs.set_handler hget (.saving .agentIp true) (by simp) (by simp)
        (by simp [Handler.savedSecret, Handler.issues, hprogress])
      exact ⟨by simpa [IdentityState.commit] using hset.uuid, hset.handlers,
        by simpa [IdentityState.commit] using hset.secrets, hset.latest⟩

theorem Whole.resume {s : IdentityState} (hs : Whole s) {i : ℕ} {h : Handler} {key : InfoKey}
    (hget : s.handlers[i]? = some h) (hprogress : h.progress = .saving key true) :
    Whole (s.resume i h key) := by
  have hok := hs.handlers h (List.mem_of_getElem? hget)
  cases key with
  | agentUuid => exact absurd hprogress (hok.keepsUuid true)
  | agentSigningSecret =>
      exact hs.set_handler hget _ (by simp) (by simp)
        (by simp [Handler.savedSecret, Handler.issues, hprogress])
  | agentCode =>
      exact hs.set_handler hget _ (by simp) (by simp)
        (by simp [Handler.savedSecret, Handler.issues, hprogress])
  | agentIp =>
      have hset := hs.set_handler hget .finished (by simp) (by simp)
        (by simp [Handler.savedSecret, Handler.issues, hprogress])
      exact ⟨hset.uuid, hset.handlers, hset.secrets, hset.latest⟩

theorem Whole.crash {s : IdentityState} (hs : Whole s) : Whole s.crash := by
  exact ⟨rfl, by simp [IdentityState.crash],
    ⟨s.info .agentSigningSecret, hs.stored_known, rfl, rfl⟩, by simp [IdentityState.crash]⟩

theorem Whole.step {s s' : IdentityState} {event : IdentityEvent} (hs : Whole s)
    (hok : Undivided s event) (hstep : identityService.step s event = some s') : Whole s' := by
  cases event with
  | register data =>
      obtain rfl := Option.some.inj hstep
      exact hs.receive hok
  | commit i =>
      simp only [identityService, identityStep] at hstep
      split at hstep <;> try cases hstep
      rename_i h hget
      split at hstep <;> try cases hstep
      rename_i key hprogress
      exact hs.commit hget hprogress (hok h hget)
  | resume i =>
      simp only [identityService, identityStep] at hstep
      split at hstep <;> try cases hstep
      rename_i h hget
      split at hstep <;> try cases hstep
      rename_i key hprogress
      exact hs.resume hget hprogress
  | crash =>
      obtain rfl := Option.some.inj hstep
      exact hs.crash

theorem whole_load (info : InfoKey → Option JsString) : Whole (IdentityState.load info) := by
  exact ⟨rfl, by simp [IdentityState.load],
    ⟨info .agentSigningSecret, List.mem_singleton_self _, rfl, rfl⟩, fun _ => rfl⟩

theorem Whole.settled {s : IdentityState} (hs : Whole s)
    (hfinished : ∀ h ∈ s.handlers, h.progress = .finished) : s.stored = s.memory := by
  obtain ⟨base, -, hmemory, hinfo⟩ := hs.secrets
  have hsame : lastSecret Handler.savedSecret base s.handlers =
      lastSecret Handler.issues base s.handlers := by
    refine lastSecret_congr (fun h hh => ?_) base
    simp [Handler.savedSecret, hfinished h hh]
  rw [IdentityState.stored, hinfo, hsame, ← hmemory, hs.uuid]

/-- The pair in memory and the pair in the table were issued together, and in
the end both are the last one that came. -/
theorem identity_updated_as_unit (info : InfoKey → Option JsString)
    (events : List IdentityEvent) (s : IdentityState)
    (hok : identityService.Along Undivided (IdentityState.load info) events)
    (hrun : identityService.run (IdentityState.load info) events = some s) :
    s.memory ∈ s.known ∧ s.stored ∈ s.known ∧
      (s.crashed = false → (∀ h ∈ s.handlers, h.progress = .finished) →
        s.known.getLast? = some s.memory ∧ s.known.getLast? = some s.stored) := by
  have hs : Whole s := hok.run_invariant (fun _ _ _ => Whole.step) (whole_load info) hrun
  refine ⟨hs.memory_known, hs.stored_known, fun hcrashed hfinished => ?_⟩
  rw [hs.settled hfinished]
  exact ⟨hs.latest hcrashed, hs.latest hcrashed⟩

/-- A stored identity, and a response of the Hub. -/
def knownAgent : InfoKey → Option JsString
  | .agentUuid => some (js "agent-1")
  | .agentSigningSecret => some (js "secret-1")
  | .agentCode => some (js "c")
  | .agentIp => none

def issued (uuid secret : String) : RegisterData :=
  ⟨js uuid, some (js secret), js "c", js "10.0.0.1"⟩

/-- Two new secrets for the known uuid, the handlers interleaved. -/
def rotation : List IdentityEvent :=
  [.register (issued "agent-1" "secret-2"), .register (issued "agent-1" "secret-3"), .commit 0,
    .resume 0, .commit 1, .resume 1, .commit 0, .resume 0, .commit 1, .resume 1, .commit 1,
    .resume 1, .commit 0, .resume 0]

theorem identity_updated_as_unit_rotation :
    ∃ s, identityService.run (IdentityState.load knownAgent) rotation = some s ∧
      s.crashed = false ∧ (∀ h ∈ s.handlers, h.progress = .finished) ∧
      s.memory = ⟨some (js "agent-1"), some (js "secret-3")⟩ ∧
      s.memory ∈ s.known ∧ s.stored ∈ s.known ∧
      (s.crashed = false → (∀ h ∈ s.handlers, h.progress = .finished) →
        s.known.getLast? = some s.memory ∧ s.known.getLast? = some s.stored) := by
  refine ⟨_, rfl, rfl, by decide, by decide, ?_⟩
  exact identity_updated_as_unit knownAgent rotation _ (by decide) rfl

/-- A response with another uuid: memory takes the uuid at once and the secret
only after the first write, and so does the table. -/
theorem identity_updated_as_unit_fails :
    ∃ s, identityService.run (IdentityState.load knownAgent)
        [.register (issued "agent-2" "secret-2"), .commit 0] = some s ∧
      s.memory = ⟨some (js "agent-2"), some (js "secret-1")⟩ ∧ s.stored = s.memory ∧
      s.memory ∉ s.known := by
  exact ⟨_, rfl, by decide, by decide, by decide⟩

/-- Every response with another uuid than the one in memory splits the pair,
unless its uuid was once issued with the secret in memory. -/
theorem split_of_other_uuid {s : IdentityState} {data : RegisterData}
    (hdata : some data.uuid ≠ s.memory.uuid) (hsecret : data.newSecret ≠ s.memory.secret)
    (hissued : ⟨some data.uuid, s.memory.secret⟩ ∉ s.known) :
    (s.receive data).memory ∉ (s.receive data).known := by
  have hmemory : (s.receive data).memory = ⟨some data.uuid, s.memory.secret⟩ := by
    simp [IdentityState.receive, IdentityState.saveUuid, hdata.symm]
  rw [hmemory, IdentityState.receive]
  dsimp only
  split_ifs
  · simpa [hissued] using hsecret.symm
  · exact hissued

end OpticsAgent.Tunnel
