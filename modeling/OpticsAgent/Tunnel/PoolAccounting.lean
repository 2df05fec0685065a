import Mathlib
import OpticsAgent.Tunnel.ReverseTunnel

/-!
The books of the preconnect pool. `pending` is a counter kept by hand and the
pool a set that is added to without looking at the limit; over any order of
callbacks the counter is the number of connections that have not settled, and
pool and counter together stay within the target.
-/

namespace OpticsAgent.Tunnel

open OpticsAgent.Ecma OpticsAgent.Node OpticsAgent.Utility OpticsAgent.Lib

namespace State

/-! ## What the primitives touch -/

section Fields

variable (s : State) (c d : ℕ) (f : Connection → Connection) (callback : Callback) (delay : ℕ)

@[simp] theorem created_updateConnection : (s.updateConnection c f).created = s.created := rfl

@[simp] theorem pool_updateConnection : (s.updateConnection c f).pool = s.pool := rfl

@[simp] theorem pending_updateConnection : (s.updateConnection c f).pending = s.pending := rfl

@[simp] theorem created_startTimer : (s.startTimer callback delay).created = s.created := rfl

@[simp] theorem pool_startTimer : (s.startTimer callback delay).pool = s.pool := rfl

@[simp] theorem pending_startTimer : (s.startTimer callback delay).pending = s.pending := rfl

@[simp] theorem connections_startTimer :
    (s.startTimer callback delay).connections = s.connections := rfl

@[simp] theorem connections_updateConnection_self :
    (s.updateConnection c f).connections c = f (s.connections c) :=
  Function.update_self c _ _

theorem connections_updateConnection_of_ne (h : d ≠ c) :
    (s.updateConnection c f).connections d = s.connections d :=
  Function.update_of_ne h _ _

end Fields

/-- The states agree on what the accounting reads, and no socket is revived. -/
structure SameBooks (s s' : State) : Prop where
  created : s'.created = s.created
  pool : s'.pool = s.pool
  pending : s'.pending = s.pending
  settled : ∀ c, (s'.connections c).settled = (s.connections c).settled
  detached : ∀ c, (s'.connections c).detached = (s.connections c).detached
  closed : ∀ c, (s'.connections c).closed = (s.connections c).closed
  destroyed : ∀ c, (s.connections c).destroyed = true → (s'.connections c).destroyed = true

theorem SameBooks.refl (s : State) : SameBooks s s :=
  ⟨rfl, rfl, rfl, fun _ => rfl, fun _ => rfl, fun _ => rfl, fun _ h => h⟩

theorem SameBooks.trans {s t u : State} (h : SameBooks s t) (h' : SameBooks t u) :
    SameBooks s u :=
  ⟨h'.created.trans h.created, h'.pool.trans h.pool, h'.pending.trans h.pending,
    fun c => (h'.settled c).trans (h.settled c), fun c => (h'.detached c).trans (h.detached c),
    fun c => (h'.closed c).trans (h.closed c), fun c hc => h'.destroyed c (h.destroyed c hc)⟩

theorem sameBooks_of_connections {s s' : State} (hcreated : s'.created = s.created)
    (hpool : s'.pool = s.pool) (hpending : s'.pending = s.pending)
    (hconnections : s'.connections = s.connections) : SameBooks s s' :=
  ⟨hcreated, hpool, hpending, fun c => by rw [hconnections], fun c => by rw [hconnections],
    fun c => by rw [hconnections], fun c h => by rw [hconnections]; exact h⟩

theorem sameBooks_updateConnection (s : State) (c : ℕ) (f : Connection → Connection)
    (hsettled : ∀ k, (f k).settled = k.settled) (hdetached : ∀ k, (f k).detached = k.detached)
    (hclosed : ∀ k, (f k).closed = k.closed)
    (hdestroyed : ∀ k, k.destroyed = true → (f k).destroyed = true) :
    SameBooks s (s.updateConnection c f) := by
  have hcases (d : ℕ) : (s.updateConnection c f).connections d = f (s.connections d) ∨
      (s.updateConnection c f).connections d = s.connections d := by
    rcases eq_or_ne d c with rfl | hne
    · exact Or.inl (connections_updateConnection_self s d f)
    · exact Or.inr (connections_updateConnection_of_ne s c d f hne)
  refine ⟨rfl, rfl, rfl, fun d => ?_, fun d => ?_, fun d => ?_, fun d hd => ?_⟩
  · rcases hcases d with h | h
    · rw [h, hsettled]
    · rw [h]
  · rcases hcases d with h | h
    · rw [h, hdetached]
    · rw [h]
  · rcases hcases d with h | h
    · rw [h, hclosed]
    · rw [h]
  · rcases hcases d with h | h
    · rw [h]
      exact hdestroyed _ hd
    · rw [h]
      exact hd

theorem sameBooks_startTimer (s : State) (callback : Callback) (delay : ℕ) :
    SameBooks s (s.startTimer callback delay) :=
  sameBooks_of_connections rfl rfl rfl rfl

theorem sameBooks_clearTimer (s : State) (callback : Callback) :
    SameBooks s (s.clearTimer callback) :=
  sameBooks_of_connections rfl rfl rfl rfl

theorem sameBooks_forgetTimer (s : State) (callback : Callback) :
    SameBooks s (s.forgetTimer callback) :=
  sameBooks_of_connections rfl rfl rfl rfl

theorem sameBooks_destroy (s : State) (c : ℕ) : SameBooks s (s.destroy c) :=
  sameBooks_updateConnection s c _ (fun _ => rfl) (fun _ => rfl) (fun _ => rfl) (fun _ _ => rfl)

theorem sameBooks_write (s : State) (c : ℕ) (text : JsString) :
    SameBooks s (s.write c text) := by
  apply sameBooks_updateConnection
  · intro k
    split_ifs <;> rfl
  · intro k
    split_ifs <;> rfl
  · intro k
    split_ifs <;> rfl
  · intro k hk
    rw [if_pos hk]
    exact hk

theorem sameBooks_markUnhealthy (s : State) (c : ℕ) : SameBooks s (s.markUnhealthy c) :=
  sameBooks_updateConnection s c _ (fun _ => rfl) (fun _ => rfl) (fun _ => rfl) (fun _ h => h)

theorem sameBooks_scheduleRefill (s : State) : SameBooks s s.scheduleRefill := by
  unfold scheduleRefill
  split_ifs
  · exact SameBooks.refl s
  · exact sameBooks_of_connections rfl rfl rfl rfl

/-! ## The invariant -/

/-- The created connections whose `settle` has not run. -/
def unsettled (s : State) : Finset ℕ :=
  (Finset.range s.created).filter fun c => (s.connections c).settled = false

structure Accounting (s : State) : Prop where
  pending_eq : s.pending = s.unsettled.card
  pooled : ∀ c ∈ s.pool, c < s.created ∧ (s.connections c).settled = true ∧
    (s.connections c).detached = false ∧ (s.connections c).closed = false
  bound : (s.pool.card : ℤ) + s.pending ≤ targetPoolCount

/-- Rejected: settled, but neither pooled nor consumed nor closed. -/
structure Idle (s : State) (c : ℕ) : Prop where
  settled : (s.connections c).settled = true
  unpooled : c ∉ s.pool
  reading : (s.connections c).detached = false
  alive : (s.connections c).closed = false

/-- A rejected connection has been destroyed. -/
def Parked (s : State) : Prop := ∀ c, s.Idle c → (s.connections c).destroyed = true

theorem unsettled_eq {s s' : State} (h : SameBooks s s') : s'.unsettled = s.unsettled := by
  unfold unsettled
  rw [h.created]
  apply Finset.filter_congr
  intro c _
  rw [h.settled]

theorem Accounting.of_sameBooks {s s' : State} (hs : s.Accounting) (h : SameBooks s s') :
    s'.Accounting := by
  constructor
  · rw [h.pending, unsettled_eq h]
    exact hs.pending_eq
  · intro c hc
    rw [h.pool] at hc
    rw [h.created, h.settled, h.detached, h.closed]
    exact hs.pooled c hc
  · rw [h.pool, h.pending]
    exact hs.bound

theorem Idle.of_sameBooks {s s' : State} {c : ℕ} (hc : s'.Idle c) (h : SameBooks s s') :
    s.Idle c :=
  ⟨(h.settled c).symm.trans hc.settled, fun hmem => hc.unpooled (h.pool ▸ hmem),
    (h.detached c).symm.trans hc.reading, (h.closed c).symm.trans hc.alive⟩

theorem Parked.of_sameBooks {s s' : State} (hs : s.Parked) (h : SameBooks s s') : s'.Parked :=
  fun c hc => h.destroyed c (hs c (hc.of_sameBooks h))

/-! ## Settling, pooling and filling -/

theorem settle_of_settled {s : State} {c : ℕ} (h : (s.connections c).settled = true) :
    s.settle c = s := by
  rw [settle, if_pos h]

theorem unsettled_settle {s : State} {c : ℕ} : (s.settle c).unsettled = s.unsettled.erase c := by
  cases h : (s.connections c).settled with
  | true =>
      rw [settle_of_settled h, Finset.erase_eq_of_notMem]
      simp [unsettled, h]
  | false =>
      ext d
      rcases eq_or_ne d c with rfl | hne
      · simp [unsettled, settle, h]
      · simp [unsettled, settle, h, updateConnection, hne]

theorem pending_settle {s : State} (hs : s.Accounting) {c : ℕ} (hc : c < s.created) :
    (s.settle c).pending = (s.settle c).unsettled.card := by
  rw [unsettled_settle]
  cases h : (s.connections c).settled with
  | true =>
      rw [settle_of_settled h, hs.pending_eq, Finset.erase_eq_of_notMem]
      simp [unsettled, h]
  | false =>
      have hmem : c ∈ s.unsettled := by simp [unsettled, h, hc]
      have hpos : 0 < s.unsettled.card := Finset.card_pos.mpr ⟨c, hmem⟩
      have hpending : (s.settle c).pending = s.pending - 1 := by simp [settle, h]
      rw [hpending, hs.pending_eq, Finset.card_erase_of_mem hmem]
      omega

@[simp] theorem created_settle (s : State) (c : ℕ) : (s.settle c).created = s.created := by
  unfold settle
  split_ifs <;> rfl

@[simp] theorem pool_settle (s : State) (c : ℕ) : (s.settle c).pool = s.pool := by
  unfold settle
  split_ifs <;> rfl

theorem connections_settle_self (s : State) (c : ℕ) :
    (s.settle c).connections c = { s.connections c with settled := true } := by
  cases h : (s.connections c).settled with
  | true =>
      rw [settle_of_settled h]
      cases hk : s.connections c
      simp_all
  | false => simp [settle, h, updateConnection]

theorem connections_settle_of_ne (s : State) {c d : ℕ} (h : d ≠ c) :
    (s.settle c).connections d = s.connections d := by
  unfold settle
  split_ifs
  · rfl
  · exact Function.update_of_ne h _ _

theorem pending_settle_le (s : State) (c : ℕ) : (s.settle c).pending ≤ s.pending := by
  unfold settle
  split_ifs
  · exact le_refl _
  · simp

theorem Accounting.settle {s : State} (hs : s.Accounting) {c : ℕ} (hc : c < s.created) :
    (s.settle c).Accounting := by
  refine ⟨pending_settle hs hc, ?_, ?_⟩
  · intro d hd
    rw [pool_settle] at hd
    rw [created_settle]
    obtain ⟨hcreated, hsettled, hdetached, hclosed⟩ := hs.pooled d hd
    rcases eq_or_ne d c with rfl | hne
    · rw [connections_settle_self]
      exact ⟨hcreated, rfl, hdetached, hclosed⟩
    · rw [connections_settle_of_ne s hne]
      exact ⟨hcreated, hsettled, hdetached, hclosed⟩
  · rw [pool_settle]
    have hle := pending_settle_le s c
    have hbound := hs.bound
    omega

theorem Accounting.addToPool {s : State} (hs : s.Accounting) {c : ℕ} (hc : c < s.created)
    (hsettled : (s.connections c).settled = true) (hdetached : (s.connections c).detached = false)
    (hclosed : (s.connections c).closed = false)
    (hroom : c ∉ s.pool → (s.pool.card : ℤ) + s.pending < targetPoolCount) :
    Accounting { s with pool := insert c s.pool } := by
  refine ⟨hs.pending_eq, ?_, ?_⟩
  · intro d hd
    rcases Finset.mem_insert.mp hd with rfl | hold
    · exact ⟨hc, hsettled, hdetached, hclosed⟩
    · exact hs.pooled d hold
  · dsimp only
    by_cases hmem : c ∈ s.pool
    · rw [Finset.insert_eq_of_mem hmem]
      exact hs.bound
    · rw [Finset.card_insert_of_notMem hmem]
      have hlt := hroom hmem
      push_cast
      omega

theorem Accounting.removeFromPool {s : State} (hs : s.Accounting) (c : ℕ) :
    Accounting { s with pool := s.pool.erase c } := by
  refine ⟨hs.pending_eq, ?_, ?_⟩
  · intro d hd
    exact hs.pooled d (Finset.mem_of_mem_erase hd)
  · have hle : (s.pool.erase c).card ≤ s.pool.card := Finset.card_erase_le
    have hbound := hs.bound
    dsimp only
    omega

theorem connections_preconnect_of_lt {s : State} {c : ℕ} (h : c < s.created) :
    s.preconnect.connections c = s.connections c :=
  Function.update_of_ne (Nat.ne_of_lt h) _ _

@[simp] theorem connections_preconnect_self (s : State) :
    s.preconnect.connections s.created = {} :=
  Function.update_self _ _ _

@[simp] theorem pool_preconnect (s : State) : s.preconnect.pool = s.pool := rfl

@[simp] theorem pending_preconnect (s : State) : s.preconnect.pending = s.pending + 1 := rfl

@[simp] theorem created_preconnect (s : State) : s.preconnect.created = s.created + 1 := rfl

theorem unsettled_preconnect (s : State) :
    s.preconnect.unsettled = insert s.created s.unsettled := by
  ext c
  rw [Finset.mem_insert, unsettled, unsettled, Finset.mem_filter, Finset.mem_filter,
    Finset.mem_range, Finset.mem_range, created_preconnect]
  rcases Nat.lt_trichotomy c s.created with hlt | rfl | hgt
  · rw [connections_preconnect_of_lt hlt]
    have hne := Nat.ne_of_lt hlt
    simp [hlt, hne, Nat.lt_succ_of_lt hlt]
  · simp
  · have hnot : ¬ c < s.created + 1 := by omega
    have hnot' : ¬ c < s.created := by omega
    have hne : c ≠ s.created := by omega
    simp [hnot, hnot', hne]

theorem Accounting.preconnect {s : State} (hs : s.Accounting)
    (hroom : (s.pool.card : ℤ) + s.pending < targetPoolCount) : s.preconnect.Accounting := by
  constructor
  · have hfresh : s.created ∉ s.unsettled := by simp [unsettled]
    rw [unsettled_preconnect, Finset.card_insert_of_notMem hfresh, pending_preconnect,
      hs.pending_eq]
    push_cast
    rfl
  · intro c hc
    obtain ⟨hcreated, hflags⟩ := hs.pooled c hc
    rw [connections_preconnect_of_lt hcreated]
    exact ⟨Nat.lt_succ_of_lt hcreated, hflags⟩
  · rw [pool_preconnect, pending_preconnect]
    omega

theorem Parked.preconnect {s : State} (hs : s.Parked) : s.preconnect.Parked := by
  intro c hc
  rcases eq_or_ne c s.created with rfl | hne
  · have hsettled := hc.settled
    rw [connections_preconnect_self] at hsettled
    cases hsettled
  · have hsame : s.preconnect.connections c = s.connections c := Function.update_of_ne hne _ _
    rw [hsame]
    apply hs c
    exact ⟨hsame ▸ hc.settled, hc.unpooled, hsame ▸ hc.reading, hsame ▸ hc.alive⟩

/-- What one new connection keeps, as long as there is room, filling keeps. -/
theorem formPreconnectPool_induction {P : State → Prop}
    (hstep : ∀ s, P s → (s.pool.card : ℤ) + s.pending < targetPoolCount → P s.preconnect)
    {s : State} (hs : P s) : P s.formPreconnectPool := by
  have hlimit : s.poolLimit ≤ targetPoolCount := by
    unfold poolLimit
    split_ifs <;> decide
  have hfill : ∀ (fuel : ℕ) (t : State), P t → P (fillTo s.poolLimit fuel t) := by
    intro fuel
    induction fuel with
    | zero => exact fun t ht => ht
    | succ fuel ih =>
        intro t ht
        unfold fillTo
        split_ifs with hroom
        · exact ih _ (hstep t ht (lt_of_lt_of_le hroom (by exact_mod_cast hlimit)))
        · exact ht
  unfold formPreconnectPool
  split_ifs
  · exact hs
  · exact hfill _ s hs

/-! ## Frames -/

/-- What holds between two frames of one chunk. After a rejection the
connection is not counted any more, so there is room for it to be pooled. -/
structure InChunk (s : State) (c : ℕ) : Prop where
  accounting : s.Accounting
  parked : s.Parked
  room : s.Idle c → (s.pool.card : ℤ) + s.pending < targetPoolCount
  created : c < s.created
  reading : (s.connections c).detached = false
  alive : (s.connections c).closed = false

theorem InChunk.of_sameBooks {s s' : State} {c : ℕ} (hs : s.InChunk c) (h : SameBooks s s') :
    s'.InChunk c := by
  refine ⟨hs.accounting.of_sameBooks h, hs.parked.of_sameBooks h, ?_, ?_, ?_, ?_⟩
  · intro hidle
    rw [h.pool, h.pending]
    exact hs.room (hidle.of_sameBooks h)
  · rw [h.created]
    exact hs.created
  · rw [h.detached]
    exact hs.reading
  · rw [h.closed]
    exact hs.alive

theorem room_settle {s : State} {c : ℕ} (hs : s.InChunk c) (hpool : c ∉ s.pool) :
    (s.pool.card : ℤ) + (s.settle c).pending < targetPoolCount := by
  cases h : (s.connections c).settled with
  | true =>
      rw [settle_of_settled h]
      exact hs.room ⟨h, hpool, hs.reading, hs.alive⟩
  | false =>
      have hpending : (s.settle c).pending = s.pending - 1 := by simp [settle, h]
      have hbound := hs.accounting.bound
      omega

/-- Accepting a connection. -/
theorem InChunk.accept {s : State} {c : ℕ} (hs : s.InChunk c) :
    InChunk { s.settle c with pool := insert c (s.settle c).pool } c := by
  have hself := connections_settle_self s c
  refine ⟨?_, ?_, ?_, ?_, ?_, ?_⟩
  · apply (hs.accounting.settle hs.created).addToPool
    · rw [created_settle]
      exact hs.created
    · rw [hself]
    · rw [hself]
      exact hs.reading
    · rw [hself]
      exact hs.alive
    · intro hpool
      rw [pool_settle] at hpool ⊢
      exact room_settle hs hpool
  · intro d hd
    rcases eq_or_ne d c with rfl | hne
    · exact absurd (Finset.mem_insert_self d _) hd.unpooled
    · have hsame := connections_settle_of_ne s hne
      change ((s.settle c).connections d).destroyed = true
      rw [hsame]
      apply hs.parked d
      refine ⟨hsame ▸ hd.settled, ?_, hsame ▸ hd.reading, hsame ▸ hd.alive⟩
      intro hmem
      exact hd.unpooled (Finset.mem_insert_of_mem (by rwa [pool_settle]))
  · intro hidle
    exact absurd (Finset.mem_insert_self c _) hidle.unpooled
  · exact (created_settle s c).symm ▸ hs.created
  · exact hself ▸ hs.reading
  · exact hself ▸ hs.alive

theorem InChunk.preconnect {s : State} {c : ℕ} (hs : s.InChunk c) (hc : c ∈ s.pool)
    (hroom : (s.pool.card : ℤ) + s.pending < targetPoolCount) : s.preconnect.InChunk c := by
  have hsame := connections_preconnect_of_lt hs.created
  refine ⟨hs.accounting.preconnect hroom, hs.parked.preconnect, ?_, ?_, ?_, ?_⟩
  · intro hidle
    exact absurd hc hidle.unpooled
  · exact Nat.lt_succ_of_lt hs.created
  · rw [hsame]
    exact hs.reading
  · rw [hsame]
    exact hs.alive

theorem InChunk.onPreOk {s : State} {c : ℕ} (hs : s.InChunk c) : (s.onPreOk c).InChunk c := by
  have hpooled := ((hs.of_sameBooks (sameBooks_clearTimer s (.ackDeadline c))).accept).of_sameBooks
    (sameBooks_startTimer _ (.heartbeat c) heartbeatIntervalMs)
  have hformed := formPreconnectPool_induction (P := fun t => t.InChunk c ∧ c ∈ t.pool)
    (fun t ht hroom => ⟨ht.1.preconnect ht.2 hroom, ht.2⟩)
    ⟨hpooled, Finset.mem_insert_self c _⟩
  unfold State.onPreOk
  dsimp only
  split_ifs
  · exact hformed.1.of_sameBooks (sameBooks_of_connections rfl rfl rfl rfl)
  · exact hformed.1

/-- Rejecting a connection. -/
theorem InChunk.reject {s : State} {c : ℕ} (hs : s.InChunk c) :
    ((s.settle c).destroy c).InChunk c := by
  have hbooks := sameBooks_destroy (s.settle c) c
  have hself := connections_settle_self s c
  refine ⟨(hs.accounting.settle hs.created).of_sameBooks hbooks, ?_, ?_, ?_, ?_, ?_⟩
  · intro d hd
    rcases eq_or_ne d c with rfl | hne
    · simp [destroy]
    · have hsame : ((s.settle c).destroy c).connections d = s.connections d :=
        (connections_updateConnection_of_ne _ c d _ hne).trans (connections_settle_of_ne s hne)
      rw [hsame]
      apply hs.parked d
      refine ⟨hsame ▸ hd.settled, ?_, hsame ▸ hd.reading, hsame ▸ hd.alive⟩
      intro hmem
      exact hd.unpooled (by rwa [hbooks.pool, pool_settle])
  · intro hidle
    have hpool : c ∉ s.pool := by
      intro hmem
      exact hidle.unpooled (by rwa [hbooks.pool, pool_settle])
    rw [hbooks.pool, hbooks.pending, pool_settle]
    exact room_settle hs hpool
  · rw [hbooks.created, created_settle]
    exact hs.created
  · rw [hbooks.detached, hself]
    exact hs.reading
  · rw [hbooks.closed, hself]
    exact hs.alive

theorem InChunk.onPreErr {s : State} {c : ℕ} (hs : s.InChunk c) (args : List JsString) :
    (s.onPreErr c args).InChunk c := by
  unfold State.onPreErr
  apply InChunk.reject
  split_ifs
  · exact hs.of_sameBooks (sameBooks_of_connections rfl rfl rfl rfl)
  · exact hs.of_sameBooks (sameBooks_clearTimer s _)

theorem InChunk.onPong {s : State} {c : ℕ} (hs : s.InChunk c) : (s.onPong c).InChunk c :=
  hs.of_sameBooks (sameBooks_of_connections rfl rfl rfl rfl)

/-- Between two callbacks. -/
structure Balanced (s : State) : Prop where
  accounting : s.Accounting
  parked : s.Parked

theorem Balanced.of_sameBooks {s s' : State} (hs : s.Balanced) (h : SameBooks s s') :
    s'.Balanced :=
  ⟨hs.accounting.of_sameBooks h, hs.parked.of_sameBooks h⟩

theorem Balanced.formPreconnectPool {s : State} (hs : s.Balanced) :
    s.formPreconnectPool.Balanced :=
  formPreconnectPool_induction
    (fun _ ht hroom => ⟨ht.accounting.preconnect hroom, ht.parked.preconnect⟩) hs

/-- A connection leaves the pool for good, by its OPEN line or its close. -/
theorem Balanced.leave {s : State} (hs : s.Balanced) (c : ℕ) (f : Connection → Connection)
    (hsettled : ∀ k, (f k).settled = k.settled)
    (hgone : ∀ k, (f k).detached = true ∨ (f k).closed = true) :
    Balanced { s.updateConnection c f with pool := s.pool.erase c } := by
  have hne (d : ℕ) (h : d ≠ c) : (s.updateConnection c f).connections d = s.connections d :=
    connections_updateConnection_of_ne s c d f h
  refine ⟨⟨?_, ?_, ?_⟩, ?_⟩
  · have hsame : unsettled { s.updateConnection c f with pool := s.pool.erase c } =
        s.unsettled := by
      unfold unsettled
      apply Finset.filter_congr
      intro d _
      change ((s.updateConnection c f).connections d).settled = false ↔ _
      rcases eq_or_ne d c with rfl | hd
      · rw [connections_updateConnection_self, hsettled]
      · rw [hne d hd]
    rw [hsame]
    exact hs.accounting.pending_eq
  · intro d hd
    obtain ⟨hd, hmem⟩ := Finset.mem_erase.mp hd
    change d < s.created ∧ ((s.updateConnection c f).connections d).settled = true ∧ _
    rw [hne d hd]
    exact hs.accounting.pooled d hmem
  · exact (hs.accounting.removeFromPool c).bound
  · intro d hd
    rcases eq_or_ne d c with rfl | hdc
    · have hreading := hd.reading
      have halive := hd.alive
      change ((s.updateConnection d f).connections d).detached = false at hreading
      change ((s.updateConnection d f).connections d).closed = false at halive
      rw [connections_updateConnection_self] at hreading halive
      rcases hgone (s.connections d) with h | h
      · rw [h] at hreading
        cases hreading
      · rw [h] at halive
        cases halive
    · have hsame := hne d hdc
      change ((s.updateConnection c f).connections d).destroyed = true
      rw [hsame]
      apply hs.parked d
      refine ⟨hsame ▸ hd.settled, ?_, hsame ▸ hd.reading, hsame ▸ hd.alive⟩
      intro hmem
      exact hd.unpooled (Finset.mem_erase.mpr ⟨hdc, hmem⟩)

theorem Balanced.onOpen {s : State} (hs : s.Balanced) (c : ℕ) (args : List JsString)
    (rest : List Byte) : (s.onOpen c args rest).Balanced := by
  have hleft := hs.leave c (fun k => { k with detached := true }) (fun _ => rfl)
    (fun _ => Or.inl rfl)
  have hconsumed : Balanced { (s.updateConnection c fun k => { k with detached := true }).stopHeartbeat
      c with pool := s.pool.erase c } :=
    hleft.of_sameBooks (sameBooks_of_connections rfl rfl rfl rfl)
  have hformed := hconsumed.formPreconnectPool
  unfold State.onOpen pipeToLocalService
  dsimp only
  split
  · exact hformed.of_sameBooks (sameBooks_destroy _ c)
  · exact hformed.of_sameBooks
      (sameBooks_updateConnection _ c _ (fun _ => rfl) (fun _ => rfl) (fun _ => rfl) (fun _ h => h))

theorem InChunk.onFrame {s : State} {c : ℕ} (hs : s.InChunk c) (frame : Frame) (rest : List Byte) :
    ((onFrame c frame rest s).2 = false → (onFrame c frame rest s).1.InChunk c) ∧
      ((onFrame c frame rest s).2 = true → (onFrame c frame rest s).1.Balanced) := by
  unfold State.onFrame
  split_ifs
  · exact ⟨fun _ => hs.onPreOk, fun h => by cases h⟩
  · exact ⟨fun _ => hs.onPreErr frame.args, fun h => by cases h⟩
  · exact ⟨fun _ => hs.onPong, fun h => by cases h⟩
  · exact ⟨(fun h => by cases h), fun _ => Balanced.onOpen ⟨hs.accounting, hs.parked⟩ c _ rest⟩
  · exact ⟨fun _ => hs, fun h => by cases h⟩

/-- A rejected connection is destroyed, so a chunk never starts without room. -/
theorem Balanced.inChunk {s : State} (hs : s.Balanced) {c : ℕ} (hcreated : c < s.created)
    (hintact : (s.connections c).destroyed = false) (halive : (s.connections c).closed = false)
    (hreading : (s.connections c).detached = false) : s.InChunk c := by
  refine ⟨hs.accounting, hs.parked, ?_, hcreated, hreading, halive⟩
  intro hidle
  rw [hs.parked c hidle] at hintact
  cases hintact

theorem InChunk.onSocketData {s : State} {c : ℕ} (hs : s.InChunk c) (chunk : List Byte) :
    (s.onSocketData c chunk).Balanced := by
  have hworld : (onData (State.onFrame c) (s.connections c).buffer chunk s).1.Balanced := by
    apply onData_invariant (fun t => t.InChunk c) Balanced _ _ _ (drainAll_true _ _ s) hs
    · intro frame rest t ht _
      exact (ht.onFrame frame rest).1
    · intro frame rest t ht _
      exact (ht.onFrame frame rest).2
    · intro t ht
      exact ⟨ht.accounting, ht.parked⟩
  exact hworld.of_sameBooks (sameBooks_updateConnection _ c (fun k => { k with buffer := _ })
    (fun _ => rfl) (fun _ => rfl) (fun _ => rfl) (fun _ h => h))

/-! ## The other callbacks -/

theorem Balanced.settle {s : State} (hs : s.Balanced) {c : ℕ} (hc : c < s.created)
    (hclosed : (s.connections c).closed = true) : (s.settle c).Balanced := by
  refine ⟨hs.accounting.settle hc, ?_⟩
  intro d hd
  rcases eq_or_ne d c with rfl | hne
  · have halive := hd.alive
    rw [connections_settle_self, hclosed] at halive
    cases halive
  · have hsame := connections_settle_of_ne s hne
    rw [hsame]
    apply hs.parked d
    exact ⟨hsame ▸ hd.settled, pool_settle s c ▸ hd.unpooled, hsame ▸ hd.reading,
      hsame ▸ hd.alive⟩

theorem Balanced.onClose {s : State} (hs : s.Balanced) {c : ℕ} (hc : c < s.created) :
    (s.onClose c).Balanced := by
  have hleft := hs.leave c (fun k => { k with closed := true }) (fun _ => rfl)
    (fun _ => Or.inr rfl)
  have hremoved : Balanced { ((((s.updateConnection c fun k => { k with closed := true }).clearTimer
      (.connectDeadline c)).clearTimer (.ackDeadline c)).stopHeartbeat c) with
      pool := s.pool.erase c } :=
    hleft.of_sameBooks (sameBooks_of_connections rfl rfl rfl rfl)
  have hclosed : ((s.updateConnection c fun k => { k with closed := true }).connections c).closed =
      true := by
    rw [connections_updateConnection_self]
  unfold State.onClose
  dsimp only
  split_ifs with hunsettled hpooled hunhealthy
  · exact (hremoved.settle hc hclosed).of_sameBooks (sameBooks_scheduleRefill _)
  · exact hremoved.of_sameBooks (sameBooks_scheduleRefill _)
  · exact hremoved.formPreconnectPool
  · exact hremoved

theorem Balanced.initPreconnectPool {s : State} (hs : s.Balanced)
    (agentUuid secret : Option JsString) : (s.initPreconnectPool agentUuid secret).Balanced := by
  unfold State.initPreconnectPool
  cases truthy agentUuid with
  | none => exact hs
  | some uuid =>
      dsimp only
      split_ifs
      · apply Balanced.formPreconnectPool
        exact hs.of_sameBooks (sameBooks_of_connections rfl rfl rfl rfl)
      · exact hs.of_sameBooks (sameBooks_of_connections rfl rfl rfl rfl)

theorem sameBooks_onConnect (s : State) (c : ℕ) (secret : Option JsString) (timestamp : Number)
    (nonce : JsString) : SameBooks s (s.onConnect c secret timestamp nonce) := by
  have hconnected : SameBooks s (((s.clearTimer (.connectDeadline c)).forgetTimer
      (.connectDeadline c)).updateConnection c fun k => { k with connected := true }) :=
    ((sameBooks_clearTimer s _).trans (sameBooks_forgetTimer _ _)).trans
      (sameBooks_updateConnection _ c (fun k => { k with connected := true })
        (fun _ => rfl) (fun _ => rfl) (fun _ => rfl) (fun _ h => h))
  unfold onConnect
  cases secret with
  | none => exact hconnected
  | some key => exact (hconnected.trans (sameBooks_write _ c _)).trans (sameBooks_startTimer _ _ _)

theorem Balanced.onTimer {s : State} (hs : s.Balanced) (callback : Callback) :
    (s.onTimer callback).Balanced := by
  cases callback with
  | connectDeadline c =>
      exact hs.of_sameBooks (((sameBooks_forgetTimer s _).trans (sameBooks_markUnhealthy _ c)).trans
        (sameBooks_destroy _ c))
  | ackDeadline c => exact hs.of_sameBooks (sameBooks_destroy s c)
  | heartbeat c =>
      unfold State.onTimer
      dsimp only
      split_ifs
      · exact hs
      · exact hs.of_sameBooks ((sameBooks_write s c _).trans (sameBooks_startTimer _ _ _))
  | pongDeadline c =>
      exact hs.of_sameBooks ((sameBooks_markUnhealthy s c).trans (sameBooks_destroy _ c))
  | refill => exact (hs.of_sameBooks (sameBooks_forgetTimer s _)).formPreconnectPool

theorem Balanced.fire {s : State} (hs : s.Balanced) (t : Timer Callback) : (s.fire t).Balanced := by
  have hexpired : (s.expire t.id).Balanced :=
    hs.of_sameBooks (sameBooks_of_connections rfl rfl rfl rfl)
  unfold State.fire
  split_ifs
  · exact hs.onTimer t.key
  · exact hexpired.onTimer t.key

theorem balanced_start : start.Balanced := by
  refine ⟨⟨rfl, ?_, by decide⟩, ?_⟩
  · intro c hc
    cases hc
  · intro c hc
    cases hc.settled

theorem balanced_step {s s' : State} {event : Event} (hs : s.Balanced)
    (hstep : step s event = some s') : s'.Balanced := by
  cases transition_of_step hstep with
  | init agentUuid secret => exact hs.initPreconnectPool agentUuid secret
  | connect c secret timestamp nonce =>
      exact hs.of_sameBooks (sameBooks_onConnect s c secret timestamp nonce)
  | data c chunk hcreated _ hintact halive hreading =>
      exact (hs.inChunk hcreated hintact halive hreading).onSocketData chunk
  | error c => exact hs.of_sameBooks (sameBooks_markUnhealthy s c)
  | close c hcreated _ => exact hs.onClose hcreated
  | timer t _ => exact hs.fire t

theorem balanced_run {s : State} {events : List Event} (hrun : service.run start events = some s) :
    s.Balanced := by
  refine Machine.run_invariant (M := service) ?_ balanced_start hrun
  intro s event s' hs hstep
  exact balanced_step hs hstep

end State

/-- In every reachable state the counter is the number of connections that
have not settled, what is pooled is settled, open and not consumed, and the
target bounds both together. -/
theorem pool_accounting (s : State) (events : List Event)
    (hrun : service.run start events = some s) :
    s.pending = s.unsettled.card ∧ 0 ≤ s.pending ∧ (∀ c ∈ s.pool, c ∉ s.unsettled) ∧
      (∀ c ∈ s.pool, (s.connections c).detached = false ∧ (s.connections c).closed = false) ∧
      (s.pool.card : ℤ) + s.pending ≤ targetPoolCount := by
  obtain ⟨hpending, hpooled, hbound⟩ := (State.balanced_run hrun).accounting
  refine ⟨hpending, ?_, ?_, ?_, hbound⟩
  · rw [hpending]
    exact Int.natCast_nonneg _
  · intro c hc hmem
    have hunsettled : (s.connections c).settled = false := (Finset.mem_filter.mp hmem).2
    rw [(hpooled c hc).2.1] at hunsettled
    cases hunsettled
  · intro c hc
    exact (hpooled c hc).2.2

/-- A connection that was rejected and then accepted in one chunk. -/
theorem pool_accounting_rejected_then_accepted :
    ∃ s, service.run start (firstContact ++ [sends 0 "PRE:ERR busy\nPRE:OK\n"]) = some s ∧
      s.pool.card = 1 ∧ s.pending = 9 ∧ s.pending = s.unsettled.card ∧
      (s.pool.card : ℤ) + s.pending ≤ targetPoolCount := by
  have hcounts : (service.run start (firstContact ++ [sends 0 "PRE:ERR busy\nPRE:OK\n"])).map
      (fun s => (s.pool.card, s.pending)) = some (1, 9) := by decide +kernel
  obtain ⟨s, hrun, hs⟩ := Option.map_eq_some_iff.mp hcounts
  obtain ⟨hpool, hpending⟩ := Prod.mk.inj hs
  have hbooks := pool_accounting s _ hrun
  exact ⟨s, hrun, hpool, hpending, hbooks.1, hbooks.2.2.2.2⟩

end OpticsAgent.Tunnel
