import Mathlib
import OpticsAgent.Tunnel.Addressing
import OpticsAgent.Tunnel.StopOutcome

/-!
Docker as a host that knows its containers by name and by the labels of compose,
with what its commands are documented to do to them. An operation on a service
addresses what its preset says, and has left none of it when it reports the
removal.
-/

namespace OpticsAgent.Tunnel

open OpticsAgent.Ecma OpticsAgent.Node OpticsAgent.Lib OpticsAgent.Docker OpticsAgent.Docker.Agent
open OpticsAgent.Service

/-! ## Docker -/

/-- The container is one of these services of a compose file. -/
def KnownContainer.Serves (services : List JsString) (k : KnownContainer) : Prop :=
  ∃ service ∈ services, k.service = some service

section Calls

variable (services : JsString → List JsString)

/-- The containers a call may bring: the one that is created, or those of a project
that is brought up with the compose file of its directory. -/
def Brings : Call → KnownContainer → Prop
  | .createContainer spec, k => k.name = spec.name ∧ k.project = none
  | .run args cwd, k => ∃ project, args = composeUpArgs project ∧ k.project = some project ∧
      k.Serves (services (cwd.getD []))
  | _, _ => False

/-- The containers a call may take away. Bringing a project up may replace those of
the services of its compose file. -/
def Takes : Call → KnownContainer → Prop
  | .removeContainer name, k => k.name = name
  | .run args cwd, k => ∃ project, k.project = some project ∧
      ((∃ deleteScope, args = composeDownArgs project deleteScope) ∨
        args = composeUpArgs project ∧ k.Serves (services (cwd.getD [])))
  | _, _ => False

/-- The containers a call that succeeds has started. -/
def Starts : Call → KnownContainer → Prop
  | .startContainer name, k => k.name = name
  | .run args cwd, k => ∃ project, args = composeUpArgs project ∧ k.project = some project ∧
      k.Serves (services (cwd.getD []))
  | _, _ => False

end Calls

/-- Calls that leave the services of every compose file as they are. Neither the
variables nor the override of a project are in its compose file. -/
def SparesServices : Call → Prop
  | .existsSync _ => True
  | .runSync args _ => args = configArgs
  | .run args _ => ∃ project, args = composeUpArgs project
  | .writeFileSync path _ => ∃ dir, path = Path.join [dir, js ".env"] ∨
      path = Path.join [dir, js "docker-compose.override.yml"]
  | _ => False

/-- Docker and the compose files on its host, as far as they are documented. -/
structure Dockerd (W : Type) where
  host : Host W
  holds : W → KnownContainer → Prop
  runs : W → KnownContainer → Prop
  /-- The services of the compose file of a directory. -/
  services : W → JsString → List JsString
  held_of_runs : ∀ w k, runs w k → holds w k
  added : ∀ c w k, holds (host c w).2 k → holds w k ∨ Brings (services w) c k
  kept : ∀ c w k, holds w k → holds (host c w).2 k ∨ Takes (services w) c k
  spared : ∀ c w, SparesServices c → services (host c w).2 = services w
  created : ∀ spec w, (host (.createContainer spec) w).1 = .ok () →
    ∃ k, k.name = spec.name ∧ k.project = none ∧ holds (host (.createContainer spec) w).2 k
  removed : ∀ name w, (host (.removeContainer name) w).1 = .ok () →
    ∀ k, k.name = name → ¬ holds (host (.removeContainer name) w).2 k
  refused : ∀ name w e, (host (.removeContainer name) w).1 = .error e →
    ∀ k, holds w k → holds (host (.removeContainer name) w).2 k
  takenDown : ∀ project deleteScope cwd w,
    (Call.run (composeDownArgs project deleteScope) cwd).succeeds
      (host (.run (composeDownArgs project deleteScope) cwd) w).1 = true →
    ∀ k, k.project = some project →
      ¬ holds (host (.run (composeDownArgs project deleteScope) cwd) w).2 k

variable {W : Type}

/-- The calls made from `s` to `t`, with whether they succeeded. -/
def callsSince (s t : Session W) : List (Call × Bool) := t.calls.drop s.calls.length

namespace Dockerd

variable (docker : Dockerd W)

/-- The containers that what was done from `s` to `t` has started, and that are
there. -/
def Started (s t : Session W) (k : KnownContainer) : Prop :=
  docker.holds t.world k ∧
    ∃ c ∈ callsSince s t, c.2 = true ∧ Starts (docker.services t.world) c.1 k

/-- The containers there are among those that an operation addresses. -/
def Addressed {α : Type} (p : Agent α) (u : Session W) (k : KnownContainer) : Prop :=
  docker.holds u.world k ∧ ∃ c ∈ callsSince u (u.run docker.host p).2, ∃ addressee,
    callAddressee c.1 = some addressee ∧ addressee.Finds k

/-- Nothing came since `t` under the name of the service. -/
def NothingNew (name : JsString) (t u : Session W) : Prop :=
  ∀ k, k.project = some name ∨ k.name = name → docker.holds u.world k → docker.holds t.world k

/-- At any time behind `t` the operation addresses exactly those containers of the
deployment that are still there. -/
def Agrees {α : Type} (p : Agent α) (name : JsString) (s t : Session W) : Prop :=
  ∀ u, docker.NothingNew name t u →
    ∀ k, docker.Addressed p u k ↔ docker.holds u.world k ∧ docker.Started s t k

end Dockerd

theorem callsSince_eq {s t : Session W} {more : List (Call × Bool)}
    (h : t.calls = s.calls ++ more) : callsSince s t = more := by
  rw [callsSince, h, List.drop_left]

theorem calls_perform (host : Host W) {s u : Session W} {more : List (Call × Bool)} (c : Call)
    (h : u.calls = s.calls ++ more) : (u.perform host (.call c)).2.calls =
      s.calls ++ (more ++ [(c, c.succeeds (host c u.world).1)]) := by
  change u.calls ++ _ = _
  rw [h, List.append_assoc]

/-! ## What an operation addresses -/

theorem Contact.touched_of_after {target : Addressee} {q : Contact} {c : Call} {succeeded : Bool}
    (h : q.after target c succeeded ≠ .untouched) :
    q ≠ .untouched ∨ callAddressee c = some target := by
  by_contra hnot
  obtain ⟨hq, hother⟩ := not_or.mp hnot
  obtain rfl := not_not.mp hq
  have hremoves : target.removedBy c = false := by
    rw [← Bool.not_eq_true]
    exact fun hremoves => hother (addressee_of_removedBy hremoves)
  apply h
  rw [Contact.after, hremoves, Bool.false_and, if_neg Bool.false_ne_true, if_neg hother,
    if_neg Contact.noConfusion]

section Operation

variable {host : Host W} {target : Addressee} {α : Type} {p : Agent α}

variable (host) in
/-- An operation on one addressee makes a call about it, and none about another. -/
theorem addresses_of_obeys
    (h : p.Obeys (addressing target) .untouched fun _ q => q ≠ .untouched) (u : Session W) :
    (∃ c ∈ callsSince u (u.run host p).2, callAddressee c.1 = some target) ∧
      ∀ c ∈ callsSince u (u.run host p).2, ∀ addressee,
        callAddressee c.1 = some addressee → addressee = target := by
  let Coupled (q : Contact) (v : Session W) : Prop := ∃ more, v.calls = u.calls ++ more ∧
    (q ≠ .untouched → ∃ c ∈ more, callAddressee c.1 = some target) ∧
    ∀ c ∈ more, ∀ addressee, callAddressee c.1 = some addressee → addressee = target
  have hstep : ∀ q op (v : Session W), (addressing target).admits q op → Coupled q v →
      Coupled ((addressing target).next q op (v.perform host op).1) (v.perform host op).2 := by
    rintro q op v hadmits ⟨more, hcalls, htouched, honly⟩
    cases op with
    | books op => exact ⟨more, hcalls, htouched, honly⟩
    | call c =>
        refine ⟨_, calls_perform host c hcalls, fun hq => ?_, ?_⟩
        · rcases Contact.touched_of_after hq with hq | hc
          · obtain ⟨d, hd, htarget⟩ := htouched hq
            exact ⟨d, List.mem_append_left _ hd, htarget⟩
          · exact ⟨_, List.mem_append_right _ List.mem_cons_self, hc⟩
        · intro d hd addressee haddressee
          rcases List.mem_append.mp hd with hd | hd
          · exact honly d hd addressee haddressee
          · obtain rfl := List.mem_singleton.mp hd
            rcases hadmits.1 with hother | htarget
            · cases hother.symm.trans haddressee
            · exact Option.some.inj (haddressee.symm.trans htarget)
  have hstart : Coupled .untouched u := ⟨[], (List.append_nil _).symm, fun h => absurd rfl h,
    List.forall_mem_nil _⟩
  obtain ⟨q, hq, more, hcalls, htouched, honly⟩ :=
    h.run_coupled (Session.perform host) hstep hstart
  have hsince : callsSince u (u.run host p).2 = more := callsSince_eq hcalls
  rw [hsince]
  exact ⟨htouched hq, honly⟩

theorem Dockerd.addressed_iff (docker : Dockerd W)
    (h : p.Obeys (addressing target) .untouched fun _ q => q ≠ .untouched) (u : Session W)
    (k : KnownContainer) :
    docker.Addressed p u k ↔ docker.holds u.world k ∧ target.Finds k := by
  obtain ⟨⟨c, hc, htarget⟩, honly⟩ := addresses_of_obeys docker.host h u
  constructor
  · rintro ⟨hheld, d, hd, addressee, haddressee, hfinds⟩
    exact ⟨hheld, honly d hd addressee haddressee ▸ hfinds⟩
  · rintro ⟨hheld, hfinds⟩
    exact ⟨hheld, c, hc, target, htarget, hfinds⟩

/-- Service `i` was reported removed between `u` and `v`. -/
def ReportsRemoved (i : ℤ) (u v : Session W) : Prop :=
  ∃ e ∈ emittedSince u v, e = .serviceStatus i .removed

theorem not_brings {services : JsString → List JsString} {c : Call} (h : CreatesNothing c)
    (k : KnownContainer) : ¬ Brings services c k := by
  cases c with
  | createContainer spec => exact h.elim
  | run args cwd =>
      rintro ⟨project, hargs, -⟩
      exact h project hargs
  | _ => exact fun hbrings => hbrings

/-- An operation brings nothing. -/
theorem Dockerd.NothingNew.run {docker : Dockerd W} {name : JsString} {t u : Session W}
    {q : Contact} {post : Except JsError α → Contact → Prop}
    (hnew : docker.NothingNew name t u) (h : p.Obeys (addressing target) q post) :
    docker.NothingNew name t (u.run docker.host p).2 := by
  let Coupled (_ : Contact) (v : Session W) : Prop := docker.NothingNew name t v
  have hstep : ∀ q op (v : Session W), (addressing target).admits q op → Coupled q v →
      Coupled ((addressing target).next q op (v.perform docker.host op).1)
        (v.perform docker.host op).2 := by
    intro q op v hadmits hnew
    cases op with
    | books op => exact hnew
    | call c =>
        intro k hk hheld
        rcases docker.added c v.world k hheld with hheld | hbrings
        · exact hnew k hk hheld
        · exact absurd hbrings (not_brings hadmits.2 k)
  obtain ⟨q', -, hrun⟩ := h.run_coupled (Session.perform docker.host) hstep hnew
  exact hrun

/-- What a call of the target takes away is no longer there. -/
theorem Dockerd.gone_of_removedBy (docker : Dockerd W) {c : Call} {w : W}
    (hremoves : target.removedBy c = true)
    (hsucceeds : c.succeeds (docker.host c w).1 = true) {k : KnownContainer}
    (hfinds : target.Finds k) : ¬ docker.holds (docker.host c w).2 k := by
  unfold Addressee.removedBy at hremoves
  split at hremoves
  · rename_i name args cwd
    have hdown : ∃ deleteScope, args = composeDownArgs name deleteScope := by
      rcases (Bool.or_eq_true _ _).mp hremoves with hargs | hargs
      · exact ⟨_, of_decide_eq_true hargs⟩
      · exact ⟨_, of_decide_eq_true hargs⟩
    obtain ⟨deleteScope, rfl⟩ := hdown
    exact docker.takenDown name deleteScope cwd w hsucceeds k hfinds
  · rename_i name other
    obtain rfl := of_decide_eq_true hremoves
    cases hreply : (docker.host (.removeContainer other) w).1 with
    | ok _ => exact docker.removed other w hreply k hfinds
    | error e =>
        rw [hreply] at hsucceeds
        cases hsucceeds
  · cases hremoves

/-- An operation that reports the removal has left none of the target. -/
theorem Dockerd.gone_of_reported (docker : Dockerd W) {i : ℤ}
    {post : Except JsError α → Contact → Prop}
    (h : p.Obeys (addressing target) .untouched post) {u : Session W}
    (hreported : ReportsRemoved i u (u.run docker.host p).2) {k : KnownContainer}
    (hfinds : target.Finds k) : ¬ docker.holds (u.run docker.host p).2.world k := by
  let Coupled (q : Contact) (v : Session W) : Prop := ∃ more,
    v.books.emitted = u.books.emitted ++ more ∧
    ((∃ e ∈ more, e = .serviceStatus i .removed) → q = .removed) ∧
    (q = .removed → ¬ docker.holds v.world k)
  have hstep : ∀ q op (v : Session W), (addressing target).admits q op → Coupled q v →
      Coupled ((addressing target).next q op (v.perform docker.host op).1)
        (v.perform docker.host op).2 := by
    rintro q op v hadmits ⟨more, hemitted, htold, hgone⟩
    cases op with
    | books op =>
        cases op with
        | emit emission =>
            refine ⟨more ++ [emission], ?_, ?_, hgone⟩
            · change v.books.emitted ++ _ = _
              rw [hemitted, List.append_assoc]
            · rintro ⟨e, he, hremoved⟩
              rcases List.mem_append.mp he with he | he
              · exact htold ⟨e, he, hremoved⟩
              · obtain rfl := List.mem_singleton.mp he
                subst hremoved
                exact hadmits
        | _ => exact ⟨more, hemitted, htold, hgone⟩
    | call c =>
        have hkept : q = .removed → ¬ docker.holds (docker.host c v.world).2 k := by
          intro hq hheld
          rcases docker.added c v.world k hheld with hheld | hbrings
          · exact hgone hq hheld
          · exact not_brings hadmits.2 k hbrings
        refine ⟨more, hemitted, fun hremoved => ?_, fun hafter => ?_⟩
        · change q.after target c _ = .removed
          rw [Contact.after, if_pos (htold hremoved)]
        · change q.after target c (c.succeeds (docker.host c v.world).1) = .removed at hafter
          rw [Contact.after] at hafter
          split_ifs at hafter with hq hgoes
          · exact hkept hq
          · obtain ⟨hremoves, hsucceeds⟩ := (Bool.and_eq_true _ _).mp hgoes
            exact docker.gone_of_removedBy hremoves hsucceeds hfinds
          · exact hkept hafter
  have hstart : Coupled .untouched u := by
    refine ⟨[], (List.append_nil _).symm, ?_, Contact.noConfusion⟩
    rintro ⟨e, he, -⟩
    cases he
  obtain ⟨q, -, more, hemitted, htold, hgone⟩ :=
    h.run_coupled (Session.perform docker.host) hstep hstart
  apply hgone
  apply htold
  have hsince : emittedSince u (u.run docker.host p).2 = more := by
    change (Program.run (Session.perform docker.host) p u).2.books.emitted.drop _ = more
    rw [hemitted, List.drop_left]
  obtain ⟨e, he, hremoved⟩ := hreported
  exact ⟨e, hsince ▸ he, hremoved⟩

end Operation

end OpticsAgent.Tunnel
