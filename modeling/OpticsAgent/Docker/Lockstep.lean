import Mathlib
import OpticsAgent.Docker.Effects

/-!
Two programs in lockstep make the same calls as long as no call fails. The
logging, the rows and the error handling of a service can then be left out when
only docker and the file system matter.
-/

namespace OpticsAgent.Docker

open OpticsAgent.Ecma OpticsAgent.Lib Agent

variable {W : Type} {α β γ δ : Type}

namespace Session

/-- No call has failed. -/
def Clean (s : Session W) : Prop := ∀ c ∈ s.calls, c.2 = true

instance (s : Session W) : Decidable s.Clean := inferInstanceAs (Decidable (∀ c ∈ _, _))

variable (host : Host W)

theorem calls_grow (p : Agent α) (s : Session W) : s.calls <+: (s.run host p).2.calls := by
  induction p generalizing s with
  | pure a => exact List.prefix_rfl
  | throw e => exact List.prefix_rfl
  | perform op next ih =>
      refine List.IsPrefix.trans ?_ (ih _ _)
      cases op with
      | books op => exact List.prefix_rfl
      | call c => exact List.prefix_append _ _

theorem Clean.of_run {p : Agent α} {s : Session W} (h : (s.run host p).2.Clean) : s.Clean :=
  fun c hc => h c ((calls_grow host p s).subset hc)

/-- Where a program is run from the same docker, what it did to docker is the
same. -/
structure Same (s t : Session W) : Prop where
  world : s.world = t.world
  calls : s.calls = t.calls

theorem Same.clean_iff {s t : Session W} (h : Same s t) : s.Clean ↔ t.Clean := by
  rw [Clean, Clean, h.calls]

theorem same_of_booksOnly {p : Agent α} (h : p.All BooksOnly) {s t : Session W} (hs : Same s t) :
    Same (s.run host p).2 t := by
  refine Program.All.run_invariant (Session.perform host) (fun s => Same s t)
    (fun op s hop hs => ?_) h hs
  cases op with
  | books op => exact ⟨hs.world, hs.calls⟩
  | call c => exact hop.elim

variable {host}

theorem Clean.of_bind {p : Agent α} {f : α → Agent β} {s : Session W}
    (h : (s.run host (p >>= f)).2.Clean) : (s.run host p).2.Clean := by
  cases hp : (s.run host p).1 with
  | ok a =>
      rw [Session.run, Program.run_bind_of_ok hp] at h
      exact Clean.of_run host h
  | error e =>
      rw [Session.run, Program.run_bind_of_error hp] at h
      exact h

end Session

open Session

/-- A program that does not call docker, and does not throw while the database
rejects nothing. -/
structure Calm (p : Agent α) : Prop where
  booksOnly : p.All BooksOnly
  completes : ∀ {W : Type} (host : Host W), p.Completes (Session.perform host)

namespace Calm

theorem pure (a : α) : Calm (Pure.pure a : Agent α) :=
  ⟨.pure a, fun _ => (Program.Total.pure a).completes⟩

theorem books (op : BookOp) : Calm (Program.ask (Op.books op) : Agent op.Reply) :=
  ⟨.ask trivial, fun _ => (Program.Total.ask _).completes⟩

theorem bind {p : Agent α} {f : α → Agent β} (hp : Calm p) (hf : ∀ a, Calm (f a)) :
    Calm (p >>= f) :=
  ⟨.bind hp.booksOnly fun a => (hf a).booksOnly,
    fun host => (hp.completes host).bind fun a => (hf a).completes host⟩

theorem emitted (emission : Emission) : Calm (emitToHub emission) := .books _

theorem sendLog {emit : HubEmit} (hemit : ∀ e, Calm (emit e)) (serviceIndex : ℤ)
    (containerName : JsString) (stream : LogOrigin) (line : JsString) :
    Calm (Docker.sendLog emit serviceIndex containerName stream line) :=
  .bind (.books _) fun _ => hemit _

theorem forEachLine {sendLine : JsString → Agent Unit} (hline : ∀ line, Calm (sendLine line))
    (lines : List JsString) : Calm (Docker.forEachLine sendLine lines) := by
  induction lines with
  | nil => exact .pure ()
  | cons line rest ih => exact .bind (hline line) fun _ => ih

end Calm

/-- The outcomes of two runs: a call failed in both, or both come to the same
docker with a value, or both with an exception. -/
def InStep (x : Except JsError α × Session W) (y : Except JsError β × Session W) : Prop :=
  (¬ x.2.Clean ∧ ¬ y.2.Clean) ∨ (Same x.2 y.2 ∧ succeeds x.1 = succeeds y.1)

theorem InStep.clean_iff {x : Except JsError α × Session W} {y : Except JsError β × Session W}
    (h : InStep x y) : x.2.Clean ↔ y.2.Clean := by
  rcases h with ⟨hx, hy⟩ | ⟨hsame, -⟩
  · exact iff_of_false hx hy
  · exact hsame.clean_iff

/-- From the same docker the two programs stay in step. -/
def Lockstep (host : Host W) (p : Agent α) (q : Agent β) : Prop :=
  ∀ s t : Session W, Same s t → InStep (s.run host p) (t.run host q)

namespace Lockstep

variable {host : Host W}

theorem pure (a : α) (b : β) : Lockstep host (Pure.pure a : Agent α) (Pure.pure b : Agent β) :=
  fun _ _ hsame => .inr ⟨hsame, rfl⟩

theorem calm {p : Agent α} {q : Agent β} (hp : Calm p) (hq : Calm q) : Lockstep host p q := by
  intro s t hsame
  obtain ⟨a, ha⟩ := hp.completes host s
  obtain ⟨b, hb⟩ := hq.completes host t
  have hleft := same_of_booksOnly host hp.booksOnly hsame
  have hright := same_of_booksOnly host hq.booksOnly ⟨hleft.world.symm, hleft.calls.symm⟩
  refine .inr ⟨⟨hright.world.symm, hright.calls.symm⟩, ?_⟩
  exact (congrArg succeeds ha).trans (congrArg succeeds hb).symm

/-- What is calm may stand before a program ... -/
theorem after {c : Agent α} {f : α → Agent β} {q : Agent γ} (hc : Calm c)
    (h : ∀ a, Lockstep host (f a) q) : Lockstep host (c >>= f) q := by
  intro s t hsame
  obtain ⟨a, ha⟩ := hc.completes host s
  rw [Session.run, Program.run_bind_of_ok ha]
  exact h a _ _ (same_of_booksOnly host hc.booksOnly hsame)

/-- A program that only calls is in step with itself. -/
theorem callsOnly {p : Agent α} (h : p.All CallsOnly) : Lockstep host p p := by
  intro s t hsame
  induction p generalizing s t with
  | pure a => exact .inr ⟨hsame, rfl⟩
  | throw e => exact .inr ⟨hsame, rfl⟩
  | perform op next ih =>
      cases op with
      | books op => exact h.1.elim
      | call c =>
          have hnext := ih (host c s.world).1 (h.2 _) (Session.perform host (.call c) s).2
            (Session.perform host (.call c) t).2
          have hreply : host c t.world = host c s.world := by rw [hsame.world]
          refine (?_ : InStep (Session.run host (next (host c s.world).1) _)
            (Session.run host (next (host c t.world).1) _))
          rw [hreply]
          refine hnext ⟨?_, ?_⟩
          · exact congrArg Prod.snd hreply.symm
          · change s.calls ++ [(c, c.succeeds (host c s.world).1)] =
              t.calls ++ [(c, c.succeeds (host c t.world).1)]
            rw [hreply, hsame.calls]

theorem bind {p : Agent α} {q : Agent β} {f : α → Agent γ} {g : β → Agent δ}
    (h : Lockstep host p q) (hnext : ∀ a b, Lockstep host (f a) (g b)) :
    Lockstep host (p >>= f) (q >>= g) := by
  intro s t hsame
  rcases h s t hsame with ⟨hp, hq⟩ | ⟨hboth, hresult⟩
  · exact .inl ⟨fun hclean => hp hclean.of_bind, fun hclean => hq hclean.of_bind⟩
  · cases hp : (s.run host p).1 with
    | ok a =>
        cases hq : (t.run host q).1 with
        | ok b =>
            rw [Session.run, Session.run, Program.run_bind_of_ok hp, Program.run_bind_of_ok hq]
            exact hnext a b _ _ hboth
        | error e => simp [hp, hq, succeeds] at hresult
    | error e =>
        cases hq : (t.run host q).1 with
        | ok b => simp [hp, hq, succeeds] at hresult
        | error e' =>
            rw [Session.run, Session.run, Program.run_bind_of_error hp,
              Program.run_bind_of_error hq]
            exact .inr ⟨hboth, rfl⟩

/-- ... and after it. -/
theorem before {p : Agent α} {f : α → Agent β} {q : Agent γ} (h : Lockstep host p q)
    (hf : ∀ a, Calm (f a)) : Lockstep host (p >>= f) q := by
  intro s t hsame
  rcases h s t hsame with ⟨hp, hq⟩ | ⟨hboth, hresult⟩
  · exact .inl ⟨fun hclean => hp hclean.of_bind, hq⟩
  · cases hp : (s.run host p).1 with
    | ok a =>
        obtain ⟨b, hb⟩ := (hf a).completes host (s.run host p).2
        rw [hp] at hresult
        rw [Session.run, Program.run_bind_of_ok hp]
        exact .inr ⟨same_of_booksOnly host (hf a).booksOnly hboth,
          (congrArg succeeds hb).trans hresult⟩
    | error e =>
        rw [hp] at hresult
        rw [Session.run, Program.run_bind_of_error hp]
        exact .inr ⟨hboth, hresult⟩

/-- A handler has nothing to do while the other program does not throw. -/
theorem guarded {p : Agent α} {q : Agent β} {handler : JsError → Agent α}
    (h : Lockstep host p q) (hq : q.Total) : Lockstep host (MonadExcept.tryCatch p handler) q := by
  intro s t hsame
  obtain ⟨b, hb⟩ := hq.run (Session.perform host) t
  cases hp : (s.run host p).1 with
  | ok a =>
      rw [Session.run, Program.run_tryCatch_of_ok hp, ← hp]
      exact h s t hsame
  | error e =>
      rcases h s t hsame with ⟨hfailed, hfailed'⟩ | ⟨-, hresult⟩
      · rw [Session.run, Program.run_tryCatch_of_error hp]
        exact .inl ⟨fun hclean => hfailed (hclean.of_run host), hfailed'⟩
      · rw [hp, Session.run, hb] at hresult
        cases hresult

/-- Both make this call. What follows need only agree when it succeeds. -/
theorem call (c : Call) {f : c.Reply → Agent γ} {g : c.Reply → Agent δ}
    (hnext : ∀ reply, c.succeeds reply = true → Lockstep host (f reply) (g reply)) :
    Lockstep host (Agent.call c >>= f) (Agent.call c >>= g) := by
  intro s t hsame
  have hsame' : Same (Session.perform host (.call c) s).2 (Session.perform host (.call c) t).2 := by
    refine ⟨?_, ?_⟩
    · change (host c s.world).2 = (host c t.world).2
      rw [hsame.world]
    · change s.calls ++ [(c, c.succeeds (host c s.world).1)] =
        t.calls ++ [(c, c.succeeds (host c t.world).1)]
      rw [hsame.world, hsame.calls]
  change InStep (Session.run host (f (host c s.world).1) (Session.perform host (.call c) s).2)
    (Session.run host (g (host c t.world).1) (Session.perform host (.call c) t).2)
  rw [← hsame.world]
  by_cases hok : c.succeeds (host c s.world).1 = true
  · exact hnext _ hok _ _ hsame'
  · have hfailed : ¬ (Session.perform host (.call c) s).2.Clean := fun hclean =>
      hok (hclean _ (List.mem_append_right _ (List.mem_singleton.mpr rfl)))
    exact .inl ⟨fun hclean => hfailed hclean.of_run, fun hclean =>
      hfailed (hsame'.clean_iff.mpr hclean.of_run)⟩

end Lockstep

end OpticsAgent.Docker
