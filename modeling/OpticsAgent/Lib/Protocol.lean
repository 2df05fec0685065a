import Mathlib
import OpticsAgent.Lib.Program

/-!
Protocols for programs. A protocol has stages. At a stage it admits some of the
operations, and an operation leads, with its reply, to a next stage. A program
obeys a protocol when, whatever the replies are, it only comes to operations
that are admitted where it comes to them, and ends as its postcondition says
for the stage it has reached.

One rule for each construct of programs carries the proof that a program obeys.
What is proved once about the text holds of every sequential run and of every
task that is taken step by step between other tasks.
-/

namespace OpticsAgent.Lib

structure Protocol (Op : Type) (Reply : Op → Type) (Q : Type) where
  admits : Q → Op → Prop
  next : Q → (op : Op) → Reply op → Q

/-- An operation with the reply it got. -/
structure Exchange (Op : Type) (Reply : Op → Type) where
  op : Op
  reply : Reply op

namespace Protocol

variable {Op : Type} {Reply : Op → Type} {Q : Type} (P : Protocol Op Reply Q)

/-- The stage some exchanges lead to. -/
def reach : Q → List (Exchange Op Reply) → Q
  | q, [] => q
  | q, e :: rest => reach (P.next q e.op e.reply) rest

/-- Every exchange is admitted where it takes place. -/
def Accepts : Q → List (Exchange Op Reply) → Prop
  | _, [] => True
  | q, e :: rest => P.admits q e.op ∧ Accepts (P.next q e.op e.reply) rest

variable {P}

theorem reach_append (q : Q) (front back : List (Exchange Op Reply)) :
    P.reach q (front ++ back) = P.reach (P.reach q front) back := by
  induction front generalizing q with
  | nil => rfl
  | cons e rest ih => exact ih _

theorem accepts_append {q : Q} {front back : List (Exchange Op Reply)} :
    P.Accepts q (front ++ back) ↔ P.Accepts q front ∧ P.Accepts (P.reach q front) back := by
  induction front generalizing q with
  | nil => exact ⟨fun h => ⟨trivial, h⟩, fun h => h.2⟩
  | cons e rest ih =>
      rw [List.cons_append, Accepts, Accepts, ih, and_assoc]
      rfl

theorem Accepts.append {q : Q} {front back : List (Exchange Op Reply)}
    (hfront : P.Accepts q front) (hback : P.Accepts (P.reach q front) back) :
    P.Accepts q (front ++ back) :=
  accepts_append.mpr ⟨hfront, hback⟩

/-- What holds at the start, and after an exchange when it held before, holds of
the stage reached and the exchanges that led there. -/
theorem Accepts.invariant {Inv : Q → List (Exchange Op Reply) → Prop} {start : Q}
    (hstart : Inv start [])
    (hstep : ∀ q history e, Inv q history → P.admits q e.op →
      Inv (P.next q e.op e.reply) (history ++ [e]))
    {history : List (Exchange Op Reply)} (h : P.Accepts start history) :
    Inv (P.reach start history) history := by
  induction history using List.reverseRecOn with
  | nil => exact hstart
  | append_singleton front e ih =>
      obtain ⟨hfront, hlast⟩ := accepts_append.mp h
      rw [reach_append]
      exact hstep _ front e (ih hfront) hlast.1

/-- From a stage in a class that is never left, every exchange meets what the
class demands. -/
theorem Accepts.forall_of_closed {inside : Q → Prop} {ok : Exchange Op Reply → Prop}
    (hstep : ∀ q e, inside q → P.admits q e.op → ok e ∧ inside (P.next q e.op e.reply))
    {q : Q} (hq : inside q) {history : List (Exchange Op Reply)} (h : P.Accepts q history) :
    ∀ e ∈ history, ok e := by
  induction history generalizing q with
  | nil => exact List.forall_mem_nil _
  | cons e rest ih =>
      obtain ⟨hok, hnext⟩ := hstep q e hq h.1
      exact List.forall_mem_cons.mpr ⟨hok, ih hnext h.2⟩

/-- The protocols run side by side: what the first admits the second admits where
`R` puts it, and they stay related. -/
def Simulates {Q' : Type} (P : Protocol Op Reply Q) (P' : Protocol Op Reply Q')
    (R : Q → Q' → Prop) : Prop :=
  ∀ q q' op, R q q' → P.admits q op →
    P'.admits q' op ∧ ∀ reply, R (P.next q op reply) (P'.next q' op reply)

theorem Accepts.simulate {Q' : Type} {P' : Protocol Op Reply Q'} {R : Q → Q' → Prop}
    (hsim : P.Simulates P' R) {q : Q} {q' : Q'} (hq : R q q')
    {history : List (Exchange Op Reply)} (h : P.Accepts q history) :
    P'.Accepts q' history ∧ R (P.reach q history) (P'.reach q' history) := by
  induction history generalizing q q' with
  | nil => exact ⟨trivial, hq⟩
  | cons e rest ih =>
      obtain ⟨hadmits, hnext⟩ := hsim q q' e.op hq h.1
      obtain ⟨haccepts, hreach⟩ := ih (hnext e.reply) h.2
      exact ⟨⟨hadmits, haccepts⟩, hreach⟩

/-- The operation is admitted and leaves the stage as it is. -/
def Idles (P : Protocol Op Reply Q) (q : Q) (op : Op) : Prop :=
  P.admits q op ∧ ∀ reply, P.next q op reply = q

end Protocol

namespace Program

variable {Op : Type} {Reply : Op → Type} {ε α β σ Q : Type} {P : Protocol Op Reply Q}

def Obeys (P : Protocol Op Reply Q) : Program Op Reply ε α → Q → (Except ε α → Q → Prop) → Prop
  | .pure a, q, post => post (.ok a) q
  | .throw e, q, post => post (.error e) q
  | .perform op next, q, post =>
      P.admits q op ∧ ∀ reply, Obeys P (next reply) (P.next q op reply) post

/-! ## Rules -/

theorem Obeys.pure {q : Q} {post : Except ε α → Q → Prop} {a : α} (h : post (.ok a) q) :
    (Pure.pure a : Program Op Reply ε α).Obeys P q post := h

theorem Obeys.throw {q : Q} {post : Except ε α → Q → Prop} {e : ε} (h : post (.error e) q) :
    (MonadExcept.throw e : Program Op Reply ε α).Obeys P q post := h

theorem Obeys.ask {q : Q} {op : Op} {post : Except ε (Reply op) → Q → Prop}
    (hadmits : P.admits q op) (hpost : ∀ reply, post (.ok reply) (P.next q op reply)) :
    (ask op : Program Op Reply ε (Reply op)).Obeys P q post := ⟨hadmits, hpost⟩

theorem Obeys.mono {p : Program Op Reply ε α} {q : Q} {post post' : Except ε α → Q → Prop}
    (h : p.Obeys P q post) (himp : ∀ r q', post r q' → post' r q') : p.Obeys P q post' := by
  induction p generalizing q with
  | pure a => exact himp _ _ h
  | throw e => exact himp _ _ h
  | perform op next ih => exact ⟨h.1, fun reply => ih reply (h.2 reply)⟩

/-- The stages between the two parts are those `mid` says of the first. -/
theorem Obeys.bind {p : Program Op Reply ε α} {f : α → Program Op Reply ε β} {q : Q}
    {mid : Except ε α → Q → Prop} {post : Except ε β → Q → Prop} (hp : p.Obeys P q mid)
    (hok : ∀ a q', mid (.ok a) q' → (f a).Obeys P q' post)
    (herror : ∀ e q', mid (.error e) q' → post (.error e) q') : (p >>= f).Obeys P q post := by
  change (Program.bind p f).Obeys P q post
  induction p generalizing q with
  | pure a => exact hok a q hp
  | throw e => exact herror e q hp
  | perform op next ih => exact ⟨hp.1, fun reply => ih reply (hp.2 reply)⟩

theorem Obeys.tryCatch {p : Program Op Reply ε α} {handler : ε → Program Op Reply ε α} {q : Q}
    {mid post : Except ε α → Q → Prop} (hp : p.Obeys P q mid)
    (hok : ∀ a q', mid (.ok a) q' → post (.ok a) q')
    (herror : ∀ e q', mid (.error e) q' → (handler e).Obeys P q' post) :
    (MonadExcept.tryCatch p handler).Obeys P q post := by
  change (Program.tryCatch p handler).Obeys P q post
  induction p generalizing q with
  | pure a => exact hok a q hp
  | throw e => exact herror e q hp
  | perform op next ih => exact ⟨hp.1, fun reply => ih reply (hp.2 reply)⟩

/-- What obeys a protocol obeys every one that simulates it. -/
theorem Obeys.simulate {Q' : Type} {P' : Protocol Op Reply Q'} {R : Q → Q' → Prop}
    (hsim : P.Simulates P' R) {p : Program Op Reply ε α} {q : Q} {q' : Q'} (hq : R q q')
    {post : Except ε α → Q → Prop} (h : p.Obeys P q post) :
    p.Obeys P' q' fun r t' => ∃ t, R t t' ∧ post r t := by
  induction p generalizing q q' with
  | pure a => exact ⟨q, hq, h⟩
  | throw e => exact ⟨q, hq, h⟩
  | perform op next ih =>
      obtain ⟨hadmits, hnext⟩ := hsim q q' op hq h.1
      exact ⟨hadmits, fun reply => ih reply (hnext reply) (h.2 reply)⟩

/-- Within a class of stages that is never left, the program only comes to what is
admitted there. -/
theorem Obeys.all {A : Op → Prop} {inside : Q → Prop}
    (hstep : ∀ q op, inside q → P.admits q op → A op ∧ ∀ reply, inside (P.next q op reply))
    {p : Program Op Reply ε α} {q : Q} (hq : inside q) {post : Except ε α → Q → Prop}
    (h : p.Obeys P q post) : p.All A := by
  induction p generalizing q with
  | pure a => trivial
  | throw e => trivial
  | perform op next ih =>
      obtain ⟨hop, hnext⟩ := hstep q op hq h.1
      exact ⟨hop, fun reply => ih reply (hnext reply) (h.2 reply)⟩

theorem Obeys.askThen {q : Q} {op : Op} {f : Reply op → Program Op Reply ε α}
    {post : Except ε α → Q → Prop} (hadmits : P.admits q op)
    (hf : ∀ reply, (f reply).Obeys P (P.next q op reply) post) :
    (Program.ask op >>= f).Obeys P q post :=
  ⟨hadmits, hf⟩

/-- A program whose operations leave the stage as it is. -/
theorem All.obeys {p : Program Op Reply ε α} {q : Q} (h : p.All (P.Idles q)) :
    p.Obeys P q fun _ q' => q' = q := by
  induction p with
  | pure a => rfl
  | throw e => rfl
  | perform op next ih =>
      refine ⟨h.1.1, fun reply => ?_⟩
      rw [h.1.2 reply]
      exact ih reply (h.2 reply)

/-- Behind a part that leaves the stage as it is. -/
theorem Obeys.behind {p : Program Op Reply ε α} {f : α → Program Op Reply ε β} {q : Q}
    {post : Except ε β → Q → Prop} (hp : p.All (P.Idles q)) (hok : ∀ a, (f a).Obeys P q post)
    (herror : ∀ e, post (.error e) q) : (p >>= f).Obeys P q post := by
  refine hp.obeys.bind ?_ ?_
  · rintro a q' rfl
    exact hok a
  · rintro e q' rfl
    exact herror e

/-- The program ends with a value and leaves the stage as it is. -/
def Steady (P : Protocol Op Reply Q) (q : Q) (p : Program Op Reply ε α) : Prop :=
  p.Obeys P q fun r q' => q' = q ∧ ∃ a, r = .ok a

theorem Steady.pure (q : Q) (a : α) : Steady P q (Pure.pure a : Program Op Reply ε α) :=
  ⟨rfl, a, rfl⟩

theorem Steady.ask {q : Q} {op : Op} (h : P.Idles q op) :
    Steady P q (Program.ask op : Program Op Reply ε (Reply op)) :=
  ⟨h.1, fun reply => ⟨h.2 reply, reply, rfl⟩⟩

/-- Behind a part that ends with a value and leaves the stage as it is. -/
theorem Steady.before {p : Program Op Reply ε α} {f : α → Program Op Reply ε β} {q : Q}
    {post : Except ε β → Q → Prop} (hp : Steady P q p) (hf : ∀ a, (f a).Obeys P q post) :
    (p >>= f).Obeys P q post := by
  refine Obeys.bind hp ?_ ?_
  · rintro a q' ⟨rfl, -⟩
    exact hf a
  · rintro e q' ⟨-, a, ha⟩
    cases ha

theorem Steady.bind {p : Program Op Reply ε α} {f : α → Program Op Reply ε β} {q : Q}
    (hp : Steady P q p) (hf : ∀ a, Steady P q (f a)) : Steady P q (p >>= f) :=
  hp.before hf

/-! ## Sequential runs -/

/-- The exchanges of a run. -/
def exchanges (host : (op : Op) → σ → Reply op × σ) :
    Program Op Reply ε α → σ → List (Exchange Op Reply)
  | .pure _, _ => []
  | .throw _, _ => []
  | .perform op next, s => ⟨op, (host op s).1⟩ :: exchanges host (next (host op s).1) (host op s).2

theorem Obeys.run (host : (op : Op) → σ → Reply op × σ) {p : Program Op Reply ε α} {q : Q}
    {post : Except ε α → Q → Prop} (h : p.Obeys P q post) (s : σ) :
    P.Accepts q (p.exchanges host s) ∧
      post (p.run host s).1 (P.reach q (p.exchanges host s)) := by
  induction p generalizing q s with
  | pure a => exact ⟨trivial, h⟩
  | throw e => exact ⟨trivial, h⟩
  | perform op next ih =>
      have hrest := ih (host op s).1 (h.2 _) (host op s).2
      exact ⟨⟨h.1, hrest.1⟩, hrest.2⟩

/-- What ties the stage to the state, and is kept by every operation admitted,
holds at the end of the run. -/
theorem Obeys.run_coupled (host : (op : Op) → σ → Reply op × σ) {Coupled : Q → σ → Prop}
    (hstep : ∀ q op s, P.admits q op → Coupled q s →
      Coupled (P.next q op (host op s).1) (host op s).2)
    {p : Program Op Reply ε α} {q : Q} {post : Except ε α → Q → Prop} (h : p.Obeys P q post)
    {s : σ} (hs : Coupled q s) :
    ∃ q', post (p.run host s).1 q' ∧ Coupled q' (p.run host s).2 := by
  induction p generalizing q s with
  | pure a => exact ⟨q, h, hs⟩
  | throw e => exact ⟨q, h, hs⟩
  | perform op next ih => exact ih _ (h.2 _) (hstep q op s h.1 hs)

/-! ## Tasks -/

/-- The exchanges of a task up to the first operation it has to wait for. -/
def settling (memory : (op : Op) → Option (σ → Reply op × σ)) :
    Program Op Reply ε α → σ → List (Exchange Op Reply)
  | .pure _, _ => []
  | .throw _, _ => []
  | .perform op next, s =>
      match memory op with
      | some act => ⟨op, (act s).1⟩ :: settling memory (next (act s).1) (act s).2
      | none => []

theorem Obeys.settle {memory : (op : Op) → Option (σ → Reply op × σ)} {p : Program Op Reply ε α}
    {q : Q} {post : Except ε α → Q → Prop} (h : p.Obeys P q post) (s : σ) :
    P.Accepts q (p.settling memory s) ∧
      (p.settle memory s).1.Obeys P (P.reach q (p.settling memory s)) post := by
  induction p generalizing q s with
  | pure a => exact ⟨trivial, h⟩
  | throw e => exact ⟨trivial, h⟩
  | perform op next ih =>
      cases hact : memory op with
      | some act =>
          have hrest := ih (act s).1 (h.2 _) (act s).2
          simp only [settling, Program.settle, hact]
          exact ⟨⟨h.1, hrest.1⟩, hrest.2⟩
      | none =>
          simp only [settling, Program.settle, hact]
          exact ⟨trivial, h⟩

/-- What ties the stage to the state, and is kept by every operation admitted,
holds where the task stops. -/
theorem Obeys.settle_coupled {memory : (op : Op) → Option (σ → Reply op × σ)}
    {Coupled : Q → σ → Prop}
    (hstep : ∀ q op act s, memory op = some act → P.admits q op → Coupled q s →
      Coupled (P.next q op (act s).1) (act s).2)
    {p : Program Op Reply ε α} {q : Q} {post : Except ε α → Q → Prop} (h : p.Obeys P q post)
    {s : σ} (hs : Coupled q s) :
    Coupled (P.reach q (p.settling memory s)) (p.settle memory s).2 := by
  induction p generalizing q s with
  | pure a => exact hs
  | throw e => exact hs
  | perform op next ih =>
      cases hact : memory op with
      | some act =>
          have hrest := ih (act s).1 (h.2 _) (hstep q op act s hact h.1 hs)
          simp only [settling, Program.settle, hact]
          exact hrest
      | none =>
          simp only [settling, Program.settle, hact]
          exact hs

end Program

end OpticsAgent.Lib
