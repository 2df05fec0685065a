import Mathlib
import OpticsAgent.Docker.DeploySteps
import OpticsAgent.Docker.Lockstep

/-!
The image tags docker has. A build that succeeds sets its tag, and the removal
of a reference takes exactly the tag it names; a reference without a tag means
`latest`. No other call touches the tags of Dockerfile builds.
-/

namespace OpticsAgent.Docker

open OpticsAgent.Ecma OpticsAgent.Node OpticsAgent.Lib Agent

/-! ## References and tags -/

/-- A tag is named after a colon in the last part of a reference. -/
def fullReference (reference : JsString) : JsString :=
  if 58 ∈ (splitUnit 47 reference).getLast?.getD [] then reference
  else reference ++ js ":latest"

/-- What a call makes of the tags. -/
def tagStep (tags : List JsString) : Call × Bool → List JsString
  | (.buildImage _ _ tag, true) => fullReference tag :: tags
  | (.removeImage reference, true) => tags.filter (· ≠ fullReference reference)
  | _ => tags

def tagsAfter (tags : List JsString) (calls : List (Call × Bool)) : List JsString :=
  calls.foldl tagStep tags

/-- The tag a call creates. -/
def createdTag : Call × Bool → Option JsString
  | (.buildImage _ _ tag, true) => some (fullReference tag)
  | _ => none

def createdTags (calls : List (Call × Bool)) : List JsString := calls.filterMap createdTag

/-- The call builds images under this name only, and removes none. -/
def BuildsFor (name : JsString) : Call → Prop
  | .buildImage _ _ tag => ∃ version, tag = name ++ js ":" ++ version
  | .removeImage _ => False
  | _ => True

/-- The call neither builds nor removes an image. -/
def NoImage : Call → Prop
  | .buildImage .. | .removeImage _ => False
  | _ => True

theorem tagsAfter_append (tags : List JsString) (calls more : List (Call × Bool)) :
    tagsAfter tags (calls ++ more) = tagsAfter (tagsAfter tags calls) more :=
  List.foldl_append

theorem tagStep_noImage (call : Call × Bool) (h : NoImage call.1) (tags : List JsString) :
    tagStep tags call = tags := by
  obtain ⟨c, ok⟩ := call
  cases c with
  | buildImage context src tag => exact h.elim
  | removeImage reference => exact h.elim
  | _ => rfl

theorem tagStep_buildsFor {name : JsString} {call : Call × Bool} (h : BuildsFor name call.1)
    (tags : List JsString) : tagStep tags call = (createdTag call).toList ++ tags := by
  obtain ⟨c, ok⟩ := call
  cases c with
  | buildImage context src tag => cases ok <;> rfl
  | removeImage reference => exact h.elim
  | _ => rfl

/-- While nothing is removed every created tag is there. -/
theorem mem_tagsAfter_iff {name : JsString} {calls : List (Call × Bool)}
    (h : ∀ call ∈ calls, BuildsFor name call.1) (tags : List JsString) (tag : JsString) :
    tag ∈ tagsAfter tags calls ↔ tag ∈ tags ∨ tag ∈ createdTags calls := by
  induction calls generalizing tags with
  | nil => simp [tagsAfter, createdTags]
  | cons call calls ih =>
      obtain ⟨hcall, hcalls⟩ := List.forall_mem_cons.mp h
      change tag ∈ tagsAfter (tagStep tags call) calls ↔ _
      rw [ih hcalls, tagStep_buildsFor hcall]
      cases hcreated : createdTag call with
      | none => simp [createdTags, hcreated]
      | some created =>
          simp only [createdTags, List.filterMap_cons, hcreated, Option.toList_some,
            List.singleton_append, List.mem_cons]
          rw [or_assoc, or_left_comm]

/-! ## The references of a service -/

theorem not_mem_of_isDockerName {name : JsString} (h : IsDockerName name) {c : CodeUnit}
    (hc : (isLowerAlnum c || isSeparator c) = false) : c ∉ name := by
  intro hmem
  rw [h.units c hmem] at hc
  cases hc

theorem fullReference_name {name : JsString} (h : IsDockerName name) :
    fullReference name = name ++ js ":latest" := by
  have hslash : 47 ∉ name := not_mem_of_isDockerName h (by decide)
  rw [fullReference, splitUnit_of_not_mem hslash, if_neg]
  exact not_mem_of_isDockerName h (by decide)

/-- A version gives the tag `latest` only by its own name. -/
theorem fullReference_version {name version : JsString} (h : IsDockerName name) :
    fullReference (name ++ js ":" ++ version) = name ++ js ":latest" ↔ version = js "latest" := by
  have hlatest : js ":latest" = js ":" ++ js "latest" := by decide
  constructor
  · intro heq
    unfold fullReference at heq
    split_ifs at heq with htagged
    · rw [hlatest, ← List.append_assoc] at heq
      exact List.append_cancel_left heq
    · have hlength := congrArg List.length heq
      simp only [List.length_append] at hlength
      have hcolon : (js ":").length = 1 := by decide
      omega
  · rintro rfl
    have hslash : 47 ∉ name ++ js ":latest" := by
      rw [List.mem_append]
      exact not_or.mpr ⟨not_mem_of_isDockerName h (by decide), by decide⟩
    rw [List.append_assoc, ← hlatest, fullReference, splitUnit_of_not_mem hslash, if_pos]
    exact List.mem_append_right _ (by decide)

/-! ## Programs and the tags -/

variable {W : Type} {host : Host W} {α : Type}

def NoImageOp : Op → Prop
  | .books _ => True
  | .call c => NoImage c

def BuildsForOp (name : JsString) : Op → Prop
  | .books _ => True
  | .call c => BuildsFor name c

theorem DeployStep.buildsFor {name : JsString} {op : Op} (h : DeployStep name op) :
    BuildsForOp name op := by
  match op with
  | .books _ => trivial
  | .call (.buildImage ..) => exact h
  | .call (.removeImage _) => exact h.elim
  | .call (.runSync ..) | .call (.run ..) | .call (.inspectContainer _) | .call (.stopContainer _)
  | .call (.restartContainer _) | .call (.startContainer _) | .call (.removeContainer _)
  | .call (.createContainer _) | .call (.existsSync _) | .call (.isDirectory _)
  | .call (.mkdirSync _) | .call (.rmSync _) | .call (.readdirSync _) | .call (.chmodSync _)
  | .call (.writeFileSync ..) => trivial

theorem buildsFor_run {name : JsString} {p : Agent α} (h : p.All (BuildsForOp name))
    {s : Session W} (hs : ∀ call ∈ s.calls, BuildsFor name call.1) :
    ∀ call ∈ (s.run host p).2.calls, BuildsFor name call.1 := by
  refine Program.All.run_invariant (Session.perform host)
    (fun t => ∀ call ∈ t.calls, BuildsFor name call.1) (fun op t hop ht => ?_) h hs
  cases op with
  | books op => exact ht
  | call c => exact List.forall_mem_append.mpr ⟨ht, List.forall_mem_singleton.mpr hop⟩

/-- What may be a step of deploying any service whatever builds no image. -/
theorem noImage_of_deployStep {p : Agent α} (h : ∀ name, p.All (DeployStep name)) :
    p.All NoImageOp := by
  apply ((h []).and (h (js "a"))).mono
  rintro op ⟨hempty, hnamed⟩
  match op with
  | .books _ => trivial
  | .call (.buildImage context src tag) =>
      obtain ⟨version, rfl⟩ := hempty
      obtain ⟨version', htag⟩ := hnamed
      have hhead : (some 58 : Option CodeUnit) = some 97 := congrArg List.head? htag
      exact absurd hhead (by decide)
  | .call (.runSync ..) | .call (.run ..) | .call (.inspectContainer _) | .call (.stopContainer _)
  | .call (.restartContainer _) | .call (.startContainer _) | .call (.removeContainer _)
  | .call (.createContainer _) | .call (.existsSync _) | .call (.isDirectory _)
  | .call (.mkdirSync _) | .call (.rmSync _) | .call (.readdirSync _) | .call (.chmodSync _)
  | .call (.writeFileSync ..) => trivial

theorem noImage_of_booksOnly {p : Agent α} (h : p.All BooksOnly) : p.All NoImageOp := by
  apply h.mono
  intro op hop
  cases op with
  | books op => trivial
  | call c => exact hop.elim

theorem tagsAfter_run {p : Agent α} (h : p.All NoImageOp) (tags : List JsString) (s : Session W) :
    tagsAfter tags (s.run host p).2.calls = tagsAfter tags s.calls := by
  refine Program.All.run_invariant (Session.perform host)
    (fun t => tagsAfter tags t.calls = tagsAfter tags s.calls) (fun op t hop ht => ?_) h rfl
  cases op with
  | books op => exact ht
  | call c =>
      change tagsAfter tags (t.calls ++ [(c, _)]) = _
      rw [tagsAfter_append, ht]
      exact tagStep_noImage (c, _) hop _

theorem tagsAfter_bind {p : Agent α} {β : Type} {f : α → Agent β} (hf : ∀ a, (f a).All NoImageOp)
    (tags : List JsString) (s : Session W) :
    tagsAfter tags (s.run host (p >>= f)).2.calls = tagsAfter tags (s.run host p).2.calls := by
  cases hp : (s.run host p).1 with
  | ok a =>
      rw [Session.run, Program.run_bind_of_ok hp]
      exact tagsAfter_run (hf a) tags _
  | error e =>
      rw [Session.run, Program.run_bind_of_error hp]
      rfl

theorem tagsAfter_guarded {p : Agent α} {handler : JsError → Agent α}
    (hhandler : ∀ e, (handler e).All NoImageOp) (tags : List JsString) (s : Session W) :
    tagsAfter tags (s.run host (MonadExcept.tryCatch p handler)).2.calls =
      tagsAfter tags (s.run host p).2.calls := by
  cases hp : (s.run host p).1 with
  | ok a =>
      rw [Session.run, Program.run_tryCatch_of_ok hp]
      rfl
  | error e =>
      rw [Session.run, Program.run_tryCatch_of_error hp]
      exact tagsAfter_run (hhandler e) tags _

/-! ## Removing the image of a service -/

/-- The world after a call, unless docker answers with an error. -/
def granted (host : Host W) (c : Call) (world : W) : Option W :=
  if c.succeeds (host c world).1 then some (host c world).2 else none

/-- The world after docker let the container be inspected, stopped when it runs,
and removed. -/
def containerGone (host : Host W) (si : JsString) (world : W) : Option W :=
  (granted host (.inspectContainer si) world).bind fun inspected =>
    (if (host (.inspectContainer si) world).1 = .ok true then
      granted host (.stopContainer si) inspected else some inspected).bind
        (granted host (.removeContainer si))

/-- Docker lets the container go, and then the image. -/
def ImageGoes (host : Host W) (si : JsString) (world : W) : Prop :=
  ((containerGone host si world).bind (granted host (.removeImage si))).isSome = true

instance (host : Host W) (si : JsString) (world : W) : Decidable (ImageGoes host si world) :=
  inferInstanceAs (Decidable (_ = true))

/-- Docker after a look at the container of a Dockerfile service. -/
def afterLook (host : Host W) (si : JsString) (world : W) : W :=
  (host (.runSync [js "inspect", si] none) world).2

theorem run_await {β : Type} (reply : Except JsError β) (s : Session W) :
    (s.run host (await reply)).2 = s := by
  cases reply with
  | ok b => rfl
  | error e => rfl

theorem world_inspectDockerfileContainer (settings : Settings) (si : JsString) (s : Session W) :
    (s.run host (inspectDockerfileContainer settings si)).2.world = afterLook host si s.world := by
  let t := (Session.perform host (.call (.runSync [js "inspect", si] none)) s).2
  change (t.run host (if _ then _ else _)).2.world = t.world
  split_ifs
  · rfl
  · exact congrArg Session.world (run_await _ t)

/-- The program ends in this world, or with an exception. -/
def EndsIn (host : Host W) (p : Agent Unit) (s : Session W) : Option W → Prop
  | some world => (s.run host p).1 = .ok () ∧ (s.run host p).2.world = world
  | none => ∃ e, (s.run host p).1 = .error e

theorem endsIn_calm {p : Agent Unit} (h : Calm p) (s : Session W) :
    EndsIn host p s (some s.world) := by
  obtain ⟨_, hvalue⟩ := h.completes host s
  exact ⟨hvalue, (Session.same_of_booksOnly host h.booksOnly ⟨rfl, rfl⟩).world⟩

theorem EndsIn.after {p : Agent Unit} (h : Calm p) {f : Unit → Agent Unit} {s : Session W}
    {out : Option W} (hf : ∀ t : Session W, t.world = s.world → EndsIn host (f ()) t out) :
    EndsIn host (p >>= f) s out := by
  obtain ⟨_, hvalue⟩ := h.completes host s
  have hrun : s.run host (p >>= f) = (s.run host p).2.run host (f ()) := by
    rw [Session.run, Program.run_bind_of_ok hvalue]
    rfl
  have hends := hf _ (Session.same_of_booksOnly host h.booksOnly ⟨rfl, rfl⟩).world
  cases out with
  | some world => rwa [EndsIn, hrun]
  | none => rwa [EndsIn, hrun]

/-- An answer is waited for, and then the program goes on. -/
theorem endsIn_await (reply : Except JsError Unit) (next : W → Option W) {f : Unit → Agent Unit}
    {s : Session W} (hf : ∀ done, EndsIn host (f done) s (next s.world)) :
    EndsIn host (await reply >>= f) s
      ((if succeeds reply then some s.world else none).bind next) := by
  cases reply with
  | ok _ => exact hf ()
  | error e => exact ⟨e, rfl⟩

variable {log : JsString → Agent Unit} (hlog : ∀ line, Calm (log line))

include hlog

theorem endsIn_removeContainer (si line : JsString) (s : Session W) :
    EndsIn host (do await (← call (.removeContainer si)); log line) s
      (granted host (.removeContainer si) s.world) := by
  let t := (Session.perform host (.call (.removeContainer si)) s).2
  change EndsIn host (await (host (.removeContainer si) s.world).1 >>= fun _ => log line) t _
  unfold granted
  cases hreply : (host (.removeContainer si) s.world).1 with
  | error e => exact ⟨e, rfl⟩
  | ok _ => exact endsIn_calm (hlog line) t

theorem endsIn_removeServiceContainer (si : JsString) (s : Session W) :
    EndsIn host (removeServiceContainer si log) s (containerGone host si s.world) := by
  have hremove : ∀ t : Session W, EndsIn host (do
      await (← call (.removeContainer si))
      log (about (js "Container ") si (js " removed."))) t
      (granted host (.removeContainer si) t.world) :=
    fun t => endsIn_removeContainer hlog si _ t
  let t := (Session.perform host (.call (.inspectContainer si)) s).2
  change EndsIn host (await (host (.inspectContainer si) s.world).1 >>= _) t
    ((granted host (.inspectContainer si) s.world).bind _)
  unfold granted
  cases hreply : (host (.inspectContainer si) s.world).1 with
  | error e => exact ⟨e, rfl⟩
  | ok running =>
      cases running with
      | false => exact hremove t
      | true =>
          change EndsIn host (log (about (js "Stopping container ") si (js "...")) >>= _) t
            ((granted host (.stopContainer si) t.world).bind (granted host (.removeContainer si)))
          apply EndsIn.after (hlog _)
          intro u hu
          rw [← hu]
          let v := (Session.perform host (.call (.stopContainer si)) u).2
          exact endsIn_await (host (.stopContainer si) u.world).1
            (granted host (.removeContainer si)) fun _ => hremove v

/-- The removal of the image takes its tag, unless docker answers with an error. -/
theorem tagsAfter_removeServiceImage (si : JsString) (tags : List JsString) (s : Session W) :
    tagsAfter tags (s.run host (removeServiceImage si log)).2.calls =
      if (granted host (.removeImage si) s.world).isSome then
        (tagsAfter tags s.calls).filter (· ≠ fullReference si)
      else tagsAfter tags s.calls := by
  have hquiet : ∀ line, (log line).All NoImageOp :=
    fun line => noImage_of_booksOnly (hlog line).booksOnly
  have hbody : ∀ reply : Except JsError Unit, (do
      await reply
      log (about (js "Image ") si (js " removed.")) : Agent Unit).All NoImageOp :=
    fun reply => .bind (all_await _ reply) fun _ => hquiet _
  unfold removeServiceImage
  rw [tagsAfter_guarded fun _ => hquiet _, tagsAfter_bind hbody]
  change tagsAfter tags (s.calls ++ [(.removeImage si, _)]) = _
  rw [tagsAfter_append]
  unfold granted
  cases Call.succeeds (.removeImage si) (host (.removeImage si) s.world).1 with
  | false => rfl
  | true => rfl

/-- The removal of a Dockerfile service takes the tag `latest` of its image, when
docker lets the container and the image go, and no other. -/
theorem tagsAfter_removeService {settings : Settings} {si : JsString}
    (hsteps : ∀ name line, (log line).All (DeployStep name)) (isCompose : Bool)
    (tags : List JsString) (s : Session W) :
    tagsAfter tags (s.run host (removeService settings si isCompose .service log)).2.calls =
      if isCompose = false ∧ ImageGoes host si s.world then
        (tagsAfter tags s.calls).filter (· ≠ fullReference si)
      else tagsAfter tags s.calls := by
  have hquiet : ∀ line, (log line).All NoImageOp :=
    fun line => noImage_of_booksOnly (hlog line).booksOnly
  have hdirectory : (removeBuildDir settings (Path.join [settings.buildRoot, si]) log).All
      NoImageOp := by
    apply noImage_of_deployStep
    intro name
    exact deployStep_removeBuildDir settings (hsteps name) _
  cases isCompose with
  | true =>
      rw [if_neg fun h => Bool.noConfusion h.1]
      apply tagsAfter_run
      exact .bind (all_dockerCliRun trivial _ hquiet) fun _ => hdirectory
  | false =>
      have hends : EndsIn host (removeServiceContainer si log) s
        (containerGone host si s.world) := endsIn_removeServiceContainer hlog si s
      have hcontainer : tagsAfter tags (s.run host (removeServiceContainer si log)).2.calls =
          tagsAfter tags s.calls :=
        tagsAfter_run (all_removeServiceContainer hquiet trivial trivial trivial) tags s
      have hsplit : removeService settings si false .service log =
          (removeServiceContainer si log >>= fun _ => removeServiceImage si log >>= fun _ =>
            removeBuildDir settings (Path.join [settings.buildRoot, si]) log) := rfl
      rw [hsplit]
      rcases hgone : containerGone host si s.world with _ | world
      · have hstays : ¬ (false = false ∧ ImageGoes host si s.world) := by
          rw [ImageGoes, hgone]
          exact fun h => Bool.noConfusion h.2
        rw [hgone] at hends
        obtain ⟨e, herror⟩ := hends
        rw [Session.run, Program.run_bind_of_error herror, if_neg hstays]
        exact hcontainer
      · have hgoes : false = false ∧ ImageGoes host si s.world ↔
            (granted host (.removeImage si) world).isSome = true := by
          rw [ImageGoes, hgone, Option.bind_some]
          exact and_iff_right rfl
        rw [hgone] at hends
        obtain ⟨hvalue, rfl⟩ := hends
        have himage : tagsAfter tags (Session.run host (removeServiceImage si log) _).2.calls = _ :=
          tagsAfter_removeServiceImage hlog si tags (s.run host (removeServiceContainer si log)).2
        rw [hcontainer] at himage
        rw [Session.run, Program.run_bind_of_ok hvalue, if_congr hgoes rfl rfl, ← himage]
        exact tagsAfter_bind (fun _ => hdirectory) tags _

end OpticsAgent.Docker
