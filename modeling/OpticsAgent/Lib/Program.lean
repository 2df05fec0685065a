import Mathlib

/-!
Programs over a signature of operations. A program ends with a value, ends
with an exception, or asks for an operation and goes on with its reply. Run
against a host that answers every operation it is a state transformer. Taken
step by step it is a task that waits for an answer, so that one text serves the
sequential and the interleaved reading.
-/

namespace OpticsAgent.Lib

inductive Program (Op : Type) (Reply : Op → Type) (ε α : Type) where
  | pure (a : α)
  | throw (e : ε)
  | perform (op : Op) (next : Reply op → Program Op Reply ε α)

namespace Program

variable {Op : Type} {Reply : Op → Type} {ε α β γ σ : Type}

def bind : Program Op Reply ε α → (α → Program Op Reply ε β) → Program Op Reply ε β
  | .pure a, f => f a
  | .throw e, _ => .throw e
  | .perform op next, f => .perform op fun reply => bind (next reply) f

/-- `try` with its `catch`: the handler goes on where the exception arose. -/
def tryCatch : Program Op Reply ε α → (ε → Program Op Reply ε α) → Program Op Reply ε α
  | .pure a, _ => .pure a
  | .throw e, handler => handler e
  | .perform op next, handler => .perform op fun reply => tryCatch (next reply) handler

instance : Monad (Program Op Reply ε) where
  pure := .pure
  bind := bind

instance : MonadExceptOf ε (Program Op Reply ε) where
  throw := .throw
  tryCatch := tryCatch

/-- The operation alone. -/
def ask (op : Op) : Program Op Reply ε (Reply op) :=
  .perform op .pure

theorem bind_bind (p : Program Op Reply ε α) (f : α → Program Op Reply ε β)
    (g : β → Program Op Reply ε γ) : p >>= f >>= g = p >>= fun a => f a >>= g := by
  change Program.bind (Program.bind p f) g = Program.bind p fun a => Program.bind (f a) g
  induction p with
  | pure a => rfl
  | throw e => rfl
  | perform op next ih => exact congrArg (Program.perform op) (funext fun reply => ih reply)

/-! ## Sequential runs -/

section Run

variable (host : (op : Op) → σ → Reply op × σ)

def run : Program Op Reply ε α → σ → Except ε α × σ
  | .pure a, s => (.ok a, s)
  | .throw e, s => (.error e, s)
  | .perform op next, s => run (next (host op s).1) (host op s).2

/-- What a run does after its first part. -/
def after (f : α → Program Op Reply ε β) : Except ε α × σ → Except ε β × σ
  | (.ok a, s) => (f a).run host s
  | (.error e, s) => (.error e, s)

/-- What a run does after a guarded part. -/
def recover (handler : ε → Program Op Reply ε α) : Except ε α × σ → Except ε α × σ
  | (.ok a, s) => (.ok a, s)
  | (.error e, s) => (handler e).run host s

@[simp] theorem run_pure (a : α) (s : σ) :
    (Pure.pure a : Program Op Reply ε α).run host s = (.ok a, s) := rfl

@[simp] theorem run_throw (e : ε) (s : σ) :
    (MonadExcept.throw e : Program Op Reply ε α).run host s = (.error e, s) := rfl

@[simp] theorem run_ask (op : Op) (s : σ) :
    (ask op : Program Op Reply ε (Reply op)).run host s = (.ok (host op s).1, (host op s).2) :=
  rfl

@[simp] theorem run_bind (p : Program Op Reply ε α) (f : α → Program Op Reply ε β) (s : σ) :
    (p >>= f).run host s = after host f (p.run host s) := by
  change (bind p f).run host s = _
  induction p generalizing s with
  | pure a => rfl
  | throw e => rfl
  | perform op next ih => exact ih (host op s).1 (host op s).2

@[simp] theorem run_tryCatch (p : Program Op Reply ε α) (handler : ε → Program Op Reply ε α)
    (s : σ) :
    (MonadExcept.tryCatch p handler).run host s = recover host handler (p.run host s) := by
  change (tryCatch p handler).run host s = _
  induction p generalizing s with
  | pure a => rfl
  | throw e => rfl
  | perform op next ih => exact ih (host op s).1 (host op s).2

@[simp] theorem after_ok (f : α → Program Op Reply ε β) (a : α) (s : σ) :
    after host f (.ok a, s) = (f a).run host s := rfl

@[simp] theorem after_error (f : α → Program Op Reply ε β) (e : ε) (s : σ) :
    after host f (.error e, s) = (.error e, s) := rfl

@[simp] theorem recover_ok (handler : ε → Program Op Reply ε α) (a : α) (s : σ) :
    recover host handler (.ok a, s) = (.ok a, s) := rfl

@[simp] theorem recover_error (handler : ε → Program Op Reply ε α) (e : ε) (s : σ) :
    recover host handler (.error e, s) = (handler e).run host s := rfl

variable {host}

theorem run_bind_of_ok {p : Program Op Reply ε α} {s : σ} {a : α} (h : (p.run host s).1 = .ok a)
    (f : α → Program Op Reply ε β) : (p >>= f).run host s = (f a).run host (p.run host s).2 := by
  rw [run_bind]
  generalize p.run host s = x at h
  obtain ⟨r, t⟩ := x
  obtain rfl : r = .ok a := h
  rfl

theorem run_bind_of_error {p : Program Op Reply ε α} {s : σ} {e : ε}
    (h : (p.run host s).1 = .error e) (f : α → Program Op Reply ε β) :
    (p >>= f).run host s = (.error e, (p.run host s).2) := by
  rw [run_bind]
  generalize p.run host s = x at h
  obtain ⟨r, t⟩ := x
  obtain rfl : r = .error e := h
  rfl

theorem run_tryCatch_of_ok {p : Program Op Reply ε α} {s : σ} {a : α}
    (h : (p.run host s).1 = .ok a) (handler : ε → Program Op Reply ε α) :
    (MonadExcept.tryCatch p handler).run host s = (.ok a, (p.run host s).2) := by
  rw [run_tryCatch]
  generalize p.run host s = x at h
  obtain ⟨r, t⟩ := x
  obtain rfl : r = .ok a := h
  rfl

theorem run_tryCatch_of_error {p : Program Op Reply ε α} {s : σ} {e : ε}
    (h : (p.run host s).1 = .error e) (handler : ε → Program Op Reply ε α) :
    (MonadExcept.tryCatch p handler).run host s = (handler e).run host (p.run host s).2 := by
  rw [run_tryCatch]
  generalize p.run host s = x at h
  obtain ⟨r, t⟩ := x
  obtain rfl : r = .error e := h
  rfl

end Run

/-! ## What a program may ask for -/

/-- Every operation the program can come to satisfies `P`. -/
def All (P : Op → Prop) : Program Op Reply ε α → Prop
  | .pure _ => True
  | .throw _ => True
  | .perform op next => P op ∧ ∀ reply, All P (next reply)

section All

variable {P Q : Op → Prop}

theorem All.pure (a : α) : (Pure.pure a : Program Op Reply ε α).All P := trivial

theorem All.throw (e : ε) : (MonadExcept.throw e : Program Op Reply ε α).All P := trivial

theorem All.ask {op : Op} (h : P op) : (ask op : Program Op Reply ε (Reply op)).All P :=
  ⟨h, fun _ => trivial⟩

theorem All.bind {p : Program Op Reply ε α} {f : α → Program Op Reply ε β} (hp : p.All P)
    (hf : ∀ a, (f a).All P) : (p >>= f).All P := by
  change (Program.bind p f).All P
  induction p with
  | pure a => exact hf a
  | throw e => trivial
  | perform op next ih => exact ⟨hp.1, fun reply => ih reply (hp.2 reply)⟩

theorem All.tryCatch {p : Program Op Reply ε α} {handler : ε → Program Op Reply ε α}
    (hp : p.All P) (hhandler : ∀ e, (handler e).All P) :
    (MonadExcept.tryCatch p handler).All P := by
  change (Program.tryCatch p handler).All P
  induction p with
  | pure a => trivial
  | throw e => exact hhandler e
  | perform op next ih => exact ⟨hp.1, fun reply => ih reply (hp.2 reply)⟩

theorem All.mono {p : Program Op Reply ε α} (h : p.All P) (himp : ∀ op, P op → Q op) :
    p.All Q := by
  induction p with
  | pure a => trivial
  | throw e => trivial
  | perform op next ih => exact ⟨himp op h.1, fun reply => ih reply (h.2 reply)⟩

theorem All.and {p : Program Op Reply ε α} (hp : p.All P) (hq : p.All Q) :
    p.All fun op => P op ∧ Q op := by
  induction p with
  | pure a => trivial
  | throw e => trivial
  | perform op next ih => exact ⟨⟨hp.1, hq.1⟩, fun reply => ih reply (hp.2 reply) (hq.2 reply)⟩

/-- What every admitted operation keeps, the run keeps. -/
theorem All.run_invariant (host : (op : Op) → σ → Reply op × σ) (Inv : σ → Prop)
    (hstep : ∀ op s, P op → Inv s → Inv (host op s).2) {p : Program Op Reply ε α}
    (h : p.All P) {s : σ} (hs : Inv s) : Inv (p.run host s).2 := by
  induction p generalizing s with
  | pure a => exact hs
  | throw e => exact hs
  | perform op next ih => exact ih _ (h.2 _) (hstep op s h.1 hs)

end All

/-! ## Programs that do not throw -/

def Total : Program Op Reply ε α → Prop
  | .pure _ => True
  | .throw _ => False
  | .perform _ next => ∀ reply, Total (next reply)

section Total

theorem Total.pure (a : α) : (Pure.pure a : Program Op Reply ε α).Total := trivial

theorem Total.ask (op : Op) : (ask op : Program Op Reply ε (Reply op)).Total := fun _ => trivial

theorem Total.bind {p : Program Op Reply ε α} {f : α → Program Op Reply ε β} (hp : p.Total)
    (hf : ∀ a, (f a).Total) : (p >>= f).Total := by
  change (Program.bind p f).Total
  induction p with
  | pure a => exact hf a
  | throw e => exact hp.elim
  | perform op next ih => exact fun reply => ih reply (hp reply)

theorem Total.run {p : Program Op Reply ε α} (h : p.Total)
    (host : (op : Op) → σ → Reply op × σ) (s : σ) : ∃ a, (p.run host s).1 = .ok a := by
  induction p generalizing s with
  | pure a => exact ⟨a, rfl⟩
  | throw e => exact h.elim
  | perform op next ih => exact ih _ (h _) _

end Total

/-! ## Programs that end with a value on a host -/

/-- Every run on the host ends with a value. -/
def Completes (host : (op : Op) → σ → Reply op × σ) (p : Program Op Reply ε α) : Prop :=
  ∀ s, ∃ a, (p.run host s).1 = .ok a

section Completes

variable {host : (op : Op) → σ → Reply op × σ}

theorem Total.completes {p : Program Op Reply ε α} (h : p.Total) : p.Completes host :=
  h.run host

theorem Completes.bind {p : Program Op Reply ε α} {f : α → Program Op Reply ε β}
    (hp : p.Completes host) (hf : ∀ a, (f a).Completes host) : (p >>= f).Completes host := by
  intro s
  obtain ⟨a, ha⟩ := hp s
  rw [run_bind_of_ok ha]
  exact hf a _

/-- A guarded program only throws what its handler throws. -/
theorem Completes.tryCatch (p : Program Op Reply ε α) {handler : ε → Program Op Reply ε α}
    (hhandler : ∀ e, (handler e).Completes host) :
    (MonadExcept.tryCatch p handler).Completes host := by
  intro s
  cases hp : (p.run host s).1 with
  | ok a =>
      rw [run_tryCatch_of_ok hp]
      exact ⟨a, rfl⟩
  | error e =>
      rw [run_tryCatch_of_error hp]
      exact hhandler e _

/-- An exception of the whole comes from the part that may throw. -/
theorem Completes.run_of_error (p : Program Op Reply ε α) {f : α → Program Op Reply ε β}
    (hf : ∀ a, (f a).Completes host) {s : σ} {e : ε} (h : ((p >>= f).run host s).1 = .error e) :
    (p >>= f).run host s = (.error e, (p.run host s).2) := by
  cases hp : (p.run host s).1 with
  | error e' =>
      rw [run_bind_of_error hp] at h ⊢
      exact Prod.ext h rfl
  | ok a =>
      rw [run_bind_of_ok hp] at h
      obtain ⟨b, hb⟩ := hf a (p.run host s).2
      cases hb.symm.trans h

end Completes

/-! ## Tasks -/

section Tasks

variable (memory : (op : Op) → Option (σ → Reply op × σ))

/-- Runs the operations that `memory` answers at once, up to the first one that
has to be waited for. -/
def settle : Program Op Reply ε α → σ → Program Op Reply ε α × σ
  | .pure a, s => (.pure a, s)
  | .throw e, s => (.throw e, s)
  | .perform op next, s =>
      match memory op with
      | some act => settle (next (act s).1) (act s).2
      | none => (.perform op next, s)

/-- The program ended with a value. -/
def isDone : Program Op Reply ε α → Bool
  | .pure _ => true
  | .throw _ => false
  | .perform .. => false

variable {memory}

theorem All.settle {P : Op → Prop} {p : Program Op Reply ε α} (h : p.All P) (s : σ) :
    (p.settle memory s).1.All P := by
  induction p generalizing s with
  | pure a => trivial
  | throw e => trivial
  | perform op next ih =>
      rw [Program.settle]
      split
      · exact ih _ (h.2 _) _
      · exact h

theorem All.settle_invariant {P : Op → Prop} (Inv : σ → Prop)
    (hstep : ∀ op act s, memory op = some act → P op → Inv s → Inv (act s).2)
    {p : Program Op Reply ε α} (h : p.All P) {s : σ} (hs : Inv s) :
    Inv (p.settle memory s).2 := by
  induction p generalizing s with
  | pure a => exact hs
  | throw e => exact hs
  | perform op next ih =>
      rw [Program.settle]
      split
      · rename_i act hact
        exact ih _ (h.2 _) (hstep op act s hact h.1 hs)
      · exact hs

end Tasks

end Program

end OpticsAgent.Lib
