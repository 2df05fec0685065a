import Mathlib
import OpticsAgent.Update.SelfUpdate

/-!
An installation over many updates. Its containers carry the directory of the
project on their labels, or the path where an old updater had it mounted. From
such a label every updater is started in the directory of the project, so that
the label of the next container has it as well, and each script finds the
environment file as the script before it left it.
-/

namespace OpticsAgent.Update

open OpticsAgent.Ecma OpticsAgent.Node OpticsAgent.Lib

/-! ## An installation -/

def IsSibling (project : JsString) (c : Container) : Prop :=
  Host.hasLabel (projectLabel ++ js "=" ++ project) c.labels = true

instance (project : JsString) (c : Container) : Decidable (IsSibling project c) :=
  inferInstanceAs (Decidable (_ = true))

/-- The agent runs as a service of the project, its labels have the directory of
the project or the mount of an old updater, and so have its siblings. -/
structure Installed (project service home : JsString) (h : Host) : Prop where
  known : selfContainerId h.process ∈ h.agent.names
  named : project ≠ [] ∧ service ≠ []
  inProject : ownValue h.agent.labels projectLabel = some project
  asService : ownValue h.agent.labels serviceLabel = some service
  dir : ∃ dir, ownValue h.agent.labels workingDirLabel = some dir ∧
    (dir = home ∨ dir = legacyUpdaterMount)
  siblings : ∀ c ∈ h.others, IsSibling project c → ∀ dir,
    label c.labels workingDirLabel = some dir → dir = home ∨ dir = legacyUpdaterMount
  updater : ∀ args, h.updater = some args → StartedFor home args
  started : ∀ args ∈ h.started, StartedFor home args

/-- The directory of the project is still on a label. -/
def Recoverable (project home : JsString) (h : Host) : Prop :=
  ownValue h.agent.labels workingDirLabel = some home ∨
    ∃ c ∈ h.others, IsSibling project c ∧ label c.labels workingDirLabel = some home

section Resolve

variable {project service home : JsString} {h : Host}

theorem label_of_ownValue {labels : Labels} {key value : JsString}
    (h : ownValue labels key = some value) (hne : value ≠ []) : label labels key = some value := by
  simp [label, h, hne]

/-- The agent's own container is the first that docker knows by its id. -/
theorem inspect_self (hinst : Installed project service home h) {replies : Replies}
    (hreplies : replies.inspectFails = none) :
    h.inspect replies (selfContainerId h.process) = .ok (some h.agent.labels) := by
  have hfind : h.containers.find? (fun c => c.names.contains (selfContainerId h.process)) =
      some h.agent := by
    exact List.find?_cons_of_pos (by simpa using hinst.known)
  rw [Host.inspect, hreplies, hfind]

theorem siblingDir_eq_some_iff {labels : Labels} {dir : JsString} :
    siblingDir (some labels) = some dir ↔
      label labels workingDirLabel = some dir ∧ dir ≠ legacyUpdaterMount := by
  simp [siblingDir, Option.filter_eq_some_iff]

/-- What docker lists of the project. -/
def projectLabels (project : JsString) (h : Host) : List (Option Labels) :=
  (h.containers.filter fun c => Host.hasLabel (projectLabel ++ js "=" ++ project) c.labels).map
    fun c => some c.labels

theorem home_of_siblings (hinst : Installed project service home h) {dir : JsString}
    (hfound : (projectLabels project h).findSome? siblingDir = some dir) : dir = home := by
  obtain ⟨labels, hmem, hdir⟩ := List.exists_of_findSome?_eq_some hfound
  obtain ⟨c, hc, rfl⟩ := List.mem_map.mp hmem
  obtain ⟨hcontainer, hsibling⟩ := List.mem_filter.mp hc
  obtain ⟨hlabel, hne⟩ := siblingDir_eq_some_iff.mp hdir
  rcases List.mem_cons.mp hcontainer with rfl | hother
  · obtain ⟨own, hown, hcases⟩ := hinst.dir
    obtain rfl : own = dir := by simpa [label, hown] using (Option.filter_eq_some_iff.mp hlabel).1
    exact hcases.resolve_right hne
  · exact (hinst.siblings c hother hsibling dir hlabel).resolve_right hne

theorem siblings_found (hpath : HostPath home) {c : Container} (hother : c ∈ h.others)
    (hsibling : IsSibling project c) (hlabel : label c.labels workingDirLabel = some home) :
    ∃ dir, (projectLabels project h).findSome? siblingDir = some dir := by
  rw [← Option.isSome_iff_exists, List.findSome?_isSome_iff]
  refine ⟨some c.labels, List.mem_map.mpr ⟨c, List.mem_filter.mpr ⟨?_, hsibling⟩, rfl⟩, ?_⟩
  · exact List.mem_cons_of_mem _ hother
  · rw [siblingDir_eq_some_iff.mpr ⟨hlabel, hpath.notLegacy⟩]
    rfl

theorem run_workingDirFromSiblings (project : JsString) (h : Host) {replies : Replies}
    (hlists : replies.listFails = none) :
    (workingDirFromSiblings project).run (Host.answer replies) h =
      (.ok ((projectLabels project h).findSome? siblingDir), h) := by
  simp [workingDirFromSiblings, Host.answer, Host.listContainers, hlists, awaited, projectLabels]

/-- Without an error from docker it depends on the label of the agent's own
container whether the siblings are looked at. -/
theorem run_resolve (hinst : Installed project service home h) {dir : JsString}
    (hlabel : label h.agent.labels workingDirLabel = some dir) {replies : Replies}
    (hinspects : replies.inspectFails = none) :
    (resolveComposeProject h.process).run (Host.answer replies) h =
      if dir ≠ legacyUpdaterMount then (.ok ⟨project, dir, service⟩, h)
      else (recoverProject project service).run (Host.answer replies) h := by
  have hproject := label_of_ownValue hinst.inProject hinst.named.1
  have hservice := label_of_ownValue hinst.asService hinst.named.2
  rw [resolveComposeProject, Program.run_bind, Program.run_ask, Program.after_ok]
  simp only [Host.answer, inspect_self hinst hinspects, awaited, Program.run_bind,
    Program.run_pure, Program.after_ok, Option.getD_some, hproject, hservice, hlabel]
  split_ifs with hlegacy
  · rfl
  · rfl

theorem run_resolve_error (process : Process) (h : Host) {replies : Replies} {e : JsError}
    (hinspects : replies.inspectFails = some e) :
    (resolveComposeProject process).run (Host.answer replies) h = (.error e, h) := by
  simp [resolveComposeProject, Host.answer, Host.inspect, hinspects, awaited]

theorem exists_label (hpath : HostPath home) (hinst : Installed project service home h) :
    ∃ dir, label h.agent.labels workingDirLabel = some dir ∧
      (dir = home ∨ dir = legacyUpdaterMount) := by
  obtain ⟨dir, hdir, hcases⟩ := hinst.dir
  refine ⟨dir, label_of_ownValue hdir ?_, hcases⟩
  rcases hcases with rfl | rfl
  · exact hpath.ne_nil
  · decide

/-- The agent finds the directory of the project or gives up; it changes nothing. -/
theorem resolve_cases (hpath : HostPath home) (hinst : Installed project service home h)
    (replies : Replies) :
    (∃ e, (resolveComposeProject h.process).run (Host.answer replies) h = (.error e, h)) ∨
      (resolveComposeProject h.process).run (Host.answer replies) h =
        (.ok ⟨project, home, service⟩, h) := by
  obtain ⟨dir, hlabel, hcases⟩ := exists_label hpath hinst
  cases hinspects : replies.inspectFails with
  | some e => exact .inl ⟨e, run_resolve_error h.process h hinspects⟩
  | none =>
      rw [run_resolve hinst hlabel hinspects]
      split_ifs with hlegacy
      · exact .inr (by rw [hcases.resolve_right hlegacy])
      · cases hlists : replies.listFails with
        | some e =>
            left
            refine ⟨e, ?_⟩
            simp [recoverProject, workingDirFromSiblings, Host.answer, Host.listContainers, hlists,
              awaited]
        | none =>
            rw [recoverProject, Program.run_bind, run_workingDirFromSiblings project h hlists,
              Program.after_ok]
            cases hfound : (projectLabels project h).findSome? siblingDir with
            | some found =>
                obtain rfl := home_of_siblings hinst hfound
                exact .inr rfl
            | none => exact .inl ⟨_, rfl⟩

theorem resolve_of_recoverable (hpath : HostPath home) (hinst : Installed project service home h)
    (hrecoverable : Recoverable project home h) {replies : Replies}
    (hinspects : replies.inspectFails = none) (hlists : replies.listFails = none) :
    (resolveComposeProject h.process).run (Host.answer replies) h =
      (.ok ⟨project, home, service⟩, h) := by
  obtain ⟨dir, hlabel, hcases⟩ := exists_label hpath hinst
  rw [run_resolve hinst hlabel hinspects]
  split_ifs with hlegacy
  · rw [hcases.resolve_right hlegacy]
  · rcases hrecoverable with hown | ⟨c, hother, hsibling, hdir⟩
    · have hhome := label_of_ownValue hown hpath.ne_nil
      obtain rfl := Option.some.inj (hlabel.symm.trans hhome)
      exact absurd hpath.notLegacy hlegacy
    · obtain ⟨found, hfound⟩ := siblings_found hpath hother hsibling hdir
      rw [recoverProject, Program.run_bind, run_workingDirFromSiblings project h hlists,
        Program.after_ok, hfound, home_of_siblings hinst hfound]
      rfl

/-! ## One request -/

def cleared (h : Host) (replies : Replies) : Host :=
  if replies.removal.status = some 0 then { h with updater := none } else h

theorem run_startUpdater (process : Process) (script version : JsString) (found : ComposeProject)
    (replies : Replies) (h : Host) :
    ((startUpdater process (.ok script) version found).run (Host.answer replies) h).2 =
      if replies.start.status = some 0 then
        h.launched (updaterArgs found.workingDir found.service
          (process.agentImage.getD defaultAgentImage) version script)
      else cleared h replies := by
  have hrun : (js "run" = js "rm") = False := by decide
  simp only [startUpdater, awaited, Program.run_bind, Program.run_ask, Program.after_ok,
    Program.run_pure, Host.answer]
  by_cases hstart : replies.start.status = some 0
  · by_cases hremoval : replies.removal.status = some 0
    · simp [hstart, hremoval, updaterArgs, hrun, Host.launched]
    · simp [hstart, hremoval, updaterArgs, hrun, Host.launched]
  · simp [hstart, updaterArgs, hrun, cleared]

/-- An update that starts no updater changes nothing, or removes the old one. -/
theorem request_cases (hpath : HostPath home) (hinst : Installed project service home h)
    (script version : JsString) (replies : Replies) :
    h.request script version replies = h ∨
      h.request script version replies = { h with updater := none } ∨
      ∃ args, StartedFor home args ∧ h.request script version replies = h.launched args := by
  cases htag : tagPattern (utf8Bytes version) with
  | false => exact .inl (by simp [Host.request, updateAgent, htag])
  | true =>
      rw [Host.request, updateAgent, htag, if_pos rfl, Program.run_bind]
      rcases resolve_cases hpath hinst replies with ⟨e, hfails⟩ | hfound
      · rw [hfails]
        exact .inl rfl
      · rw [hfound, Program.after_ok, run_startUpdater]
        split_ifs with hstart
        · exact .inr (.inr ⟨_, ⟨service, _, version, script, rfl, htag⟩, rfl⟩)
        · rw [cleared]
          split_ifs with hremoval
          · exact .inr (.inl rfl)
          · exact .inl rfl

/-- While the directory is on a label and docker answers, a well-formed request
starts an updater. -/
theorem request_starts (hpath : HostPath home) (hinst : Installed project service home h)
    (hrecoverable : Recoverable project home h) (script : JsString) {version : JsString}
    (htag : tagPattern (utf8Bytes version) = true) {replies : Replies}
    (hanswers : replies.Answer) :
    h.request script version replies = h.launched (updaterArgs home service
      (h.process.agentImage.getD defaultAgentImage) version script) := by
  rw [Host.request, updateAgent, htag, if_pos rfl, Program.run_bind,
    resolve_of_recoverable hpath hinst hrecoverable hanswers.inspects hanswers.lists,
    Program.after_ok, run_startUpdater, if_pos hanswers.starts]

/-! ## Runs -/

theorem Installed.launched (hinst : Installed project service home h) {args : List JsString}
    (hargs : StartedFor home args) : Installed project service home (h.launched args) := by
  refine { hinst with updater := fun args' h' => ?_, started := fun args' h' => ?_ }
  · obtain rfl := Option.some.inj h'
    exact hargs
  · rcases List.mem_append.mp h' with hold | hnew
    · exact hinst.started args' hold
    · rwa [List.mem_singleton.mp hnew]

theorem ownValue_recreated (hinst : Installed project service home h) (dir : JsString)
    (process : Process) (names : List JsString) :
    ownValue (h.recreated dir process names).agent.labels projectLabel = some project ∧
      ownValue (h.recreated dir process names).agent.labels workingDirLabel = some dir ∧
      ownValue (h.recreated dir process names).agent.labels serviceLabel = some service := by
  have hdistinct : projectLabel ≠ workingDirLabel ∧ projectLabel ≠ serviceLabel ∧
      workingDirLabel ≠ serviceLabel := by
    decide
  obtain ⟨hpw, hps, hws⟩ := hdistinct
  refine ⟨?_, ?_, ?_⟩
  · simp [Host.recreated, ownValue, hinst.inProject]
  · simp [Host.recreated, ownValue, hpw]
  · simp [Host.recreated, ownValue, hps, hws, hinst.asService]

/-- The container an updater makes keeps the project, and has its directory on
the label. -/
theorem Installed.replaced (hinst : Installed project service home h) {args : List JsString}
    (hargs : StartedFor home args) {fresh : Option (Process × List JsString)} {after : Host}
    (hafter : h.replaced home args fresh = some after) :
    Installed project service home after ∧
      (Recoverable project home h → Recoverable project home after) ∧
      after.envFile = h.envFile ∧ after.started = h.started ∧ after.finished = h.finished := by
  cases fresh with
  | none =>
      obtain rfl := Option.some.inj hafter
      exact ⟨hinst, id, rfl, rfl, rfl⟩
  | some made =>
      obtain ⟨process, names⟩ := made
      simp only [Host.replaced, hargs.workdir, Option.getD_some] at hafter
      split_ifs at hafter with hfits
      obtain rfl := Option.some.inj hafter
      obtain ⟨hproject, hdir, hservice⟩ := ownValue_recreated hinst home process names
      refine ⟨?_, fun _ => .inl hdir, rfl, rfl, rfl⟩
      exact {
        known := hfits.2
        named := hinst.named
        inProject := hproject
        asService := hservice
        dir := ⟨home, hdir, .inl rfl⟩
        siblings := hinst.siblings
        updater := hinst.updater
        started := hinst.started }

theorem Installed.ended (hinst : Installed project service home h) (envFile : Option (List Byte))
    (finished : List (List Byte × ℕ)) :
    Installed project service home { h with updater := none, envFile, finished } :=
  { hinst with updater := nofun }

variable {other : List Byte → List Byte → Option (List Byte)} {script : JsString}

/-- An installation is one for ever, and its directory is not lost any more. -/
theorem Installed.step (hpath : HostPath home) {s s' : Host} {e : UpdateEvent}
    (hinst : Installed project service home s) (hstep : s.step other script home e = some s') :
    Installed project service home s' ∧
      (Recoverable project home s → Recoverable project home s') := by
  cases e with
  | request version replies =>
      obtain rfl := Option.some.inj hstep
      rcases request_cases hpath hinst script version replies with h | h | ⟨args, hargs, h⟩
      · rw [h]
        exact ⟨hinst, id⟩
      · rw [h]
        exact ⟨hinst.ended s.envFile s.finished, id⟩
      · rw [h]
        exact ⟨hinst.launched hargs, id⟩
  | script o fresh =>
      obtain ⟨args, hupdater, hmap⟩ := Option.bind_eq_some_iff.mp hstep
      obtain ⟨after, hafter, rfl⟩ := Option.map_eq_some_iff.mp hmap
      obtain ⟨hinstalled, hrecoverable, -⟩ := hinst.replaced (hinst.updater args hupdater) hafter
      exact ⟨hinstalled.ended _ _, hrecoverable⟩
  | cutShort wrote fresh =>
      obtain ⟨args, hupdater, hmap⟩ := Option.bind_eq_some_iff.mp hstep
      obtain ⟨after, hafter, rfl⟩ := Option.map_eq_some_iff.mp hmap
      obtain ⟨hinstalled, hrecoverable, -⟩ := hinst.replaced (hinst.updater args hupdater) hafter
      exact ⟨hinstalled.ended _ _, hrecoverable⟩

end Resolve

/-! ### An installation with an old updater's mount on its label -/

def agentId : JsString := List.replicate 64 97

def agentProcess : Process where
  mountinfo := some (js "25 1 0:3 / /etc/hosts rw - ext4 /docker/containers/" ++ agentId ++
    js "/hosts")
  hostname := js "agent"

def optDir : JsString := js "/opt/optics"

def composeLabels (service dir : JsString) : Labels :=
  [(projectLabel, js "optics-agent"), (workingDirLabel, dir), (serviceLabel, service)]

def oldInstallation : Host where
  process := agentProcess
  agent := ⟨[agentId], composeLabels (js "optics-agent") legacyUpdaterMount⟩
  others := [⟨[js "db"], []⟩,
    ⟨[js "dashboard"], composeLabels (js "optics-agent-dashboard") optDir⟩]
  envFile := some (utf8Bytes (js "AGENT_PORT=5230\nAGENT_IMAGE_TAG=0.8.0"))

/-- An update, and one that is rolled back. -/
def twoUpdates : List UpdateEvent :=
  [.request (js "1.0.0") {}, .script succeeds (some (agentProcess, [agentId])),
    .request (js "1.1.0") {}, .script fails none]

theorem optDir_path : HostPath optDir := by
  exact ⟨by decide, by decide, by decide⟩

theorem oldInstallation_installed :
    Installed (js "optics-agent") (js "optics-agent") optDir oldInstallation where
  known := by decide +kernel
  named := by decide
  inProject := by decide
  asService := by decide
  dir := ⟨legacyUpdaterMount, by decide, .inr rfl⟩
  siblings := by
    intro c hc hsibling dir hdir
    simp only [oldInstallation, List.mem_cons, List.not_mem_nil, or_false] at hc
    rcases hc with rfl | rfl
    · cases hdir
    · left
      have hlabel : label (composeLabels (js "optics-agent-dashboard") optDir) workingDirLabel =
          some optDir := by
        decide
      exact Option.some.inj (hdir.symm.trans hlabel)
  updater := nofun
  started := nofun

def noSed : List Byte → List Byte → Option (List Byte) := fun _ _ => none

/-- Every tag line can be written and put back as it stands. -/
structure Steady (content : List Byte) : Prop where
  writable : Writable content
  read : readTag content = effectiveTag content
  plain : Plain (readTag content)

theorem shellText_readTag (content : List Byte) :
    shellText (readTag content) = readTag content := by
  rw [readTag, shellText, shellText, List.filter_filter]
  simp

theorem shellText_tag {tag : List Byte} (h : tagPattern tag = true) : shellText tag = tag := by
  rw [shellText, List.filter_eq_self]
  intro b hb
  cases tag with
  | nil => cases h
  | cons first rest =>
      simp only [tagPattern, Bool.and_eq_true, List.all_eq_true] at h
      have hzero : isAlnum 0 = false ∧ (isAlnum 0 || (0 : Byte) == 46 || (0 : Byte) == 95 ||
          (0 : Byte) == 45) = false := by
        decide
      rcases List.mem_cons.mp hb with rfl | hmem
      · exact decide_eq_true fun hnul => by simp [hnul, hzero.1] at h
      · exact decide_eq_true fun hnul => by
          have hunit := h.1.2 b hmem
          simp [hnul, hzero.1] at hunit

theorem steady_of_forall {content value : List Byte} (hne : tagLines content ≠ [])
    (hall : ∀ line ∈ tagLines content, line = tagKey ++ value) (hplain : Plain value)
    (hnul : shellText value = value) : Steady content := by
  have hread : readTag content = value := by
    obtain ⟨line, rest, htags⟩ := List.exists_cons_of_ne_nil hne
    have hline := hall line (by simp [htags])
    rw [readTag, htags, List.head?_cons, Option.map_some, Option.getD_some, hline,
      tagValue_append, hnul]
  have heffective : effectiveTag content = value := by
    refine effectiveTag_of_last ?_
    rw [List.getLast?_eq_some_getLast hne, hall _ (List.getLast_mem hne)]
  exact ⟨fun hnone => absurd hnone hne, hread.trans heffective.symm, hread ▸ hplain⟩

section Script

variable (other : List Byte → List Byte → Option (List Byte))

/-- A written value is on every tag line of the file. -/
theorem writeTag_steady {value : List Byte} (envFile : Option (List Byte)) (hplain : Plain value)
    (hvalue : OneLine value) (hnul : shellText value = value)
    (hwritable : Writable (envFile.getD [])) :
    ∃ written, writeTag other value envFile = some written ∧
      Written value (envFile.getD []) written ∧ Steady written := by
  by_cases htags : tagLines (envFile.getD []) = []
  · have hopen := hwritable htags
    have hnew : tagLines (envFile.getD [] ++ (tagKey ++ value ++ [10])) = [tagKey ++ value] := by
      rw [tagLines, lines_append_tag hopen hvalue, List.filter_append, ← tagLines, htags]
      simp
    refine ⟨_, writeTag_append other value htags, append_written hvalue htags hopen, ?_⟩
    refine steady_of_forall ?_ ?_ hplain hnul
    · rw [hnew]
      exact List.cons_ne_nil _ _
    · rw [hnew]
      exact fun line => List.mem_singleton.mp
  · have hnew : tagLines (retag (fun _ => value) (envFile.getD [])) = _ :=
      tagLines_retag fun _ _ => hvalue
    refine ⟨_, (writeTag_sed other value htags).trans (sed_plain other hplain),
      retag_written hvalue htags, ?_⟩
    refine steady_of_forall (by simpa [hnew] using htags) (fun line hline => ?_) hplain hnul
    rw [hnew] at hline
    obtain ⟨-, -, rfl⟩ := List.mem_map.mp hline
    rfl

/-- A script over a steady file sets the tag or puts it back, and leaves the file
steady. -/
theorem updateScript_steady (o : Outcomes) {targetTag : List Byte} {envFile : Option (List Byte)}
    (htarget : tagPattern targetTag = true) (hsteady : Steady (envFile.getD [])) :
    Consistent targetTag envFile (updateScript other o targetTag envFile) ∧
      Steady ((updateScript other o targetTag envFile).envFile.getD []) := by
  obtain ⟨hplain, hvalue⟩ := tag_plain htarget
  have hunchanged : Consistent targetTag envFile { exitCode := 1, envFile } :=
    ⟨fun hzero => absurd hzero one_ne_zero, fun _ => rfl, rfl⟩
  obtain ⟨written, hwrite, hwritten, hnew⟩ :=
    writeTag_steady other envFile hplain hvalue (shellText_tag htarget) hsteady.writable
  obtain ⟨restored, hrestore, hback, hold⟩ := writeTag_steady other (some written) hsteady.plain
    readTag_oneLine (shellText_readTag _) hwritten.writable
  cases hconfig : o.config with
  | false => exact ⟨by simpa [updateScript, hconfig], by simpa [updateScript, hconfig]⟩
  | true =>
      cases hpull : o.pull with
      | false =>
          exact ⟨by simpa [updateScript, hconfig, hpull], by simpa [updateScript, hconfig, hpull]⟩
      | true =>
          rw [updateScript_written hconfig hpull hwrite]
          split_ifs with hup
          · exact ⟨⟨fun _ => hwritten.tag, fun h => absurd rfl h, hwritten.others⟩, hnew⟩
          · have hfile : (rollback other o (readTag (envFile.getD [])) (some written)).envFile =
                some restored := by
              rw [rollback, hrestore]
              rfl
            refine ⟨⟨fun hzero => absurd hzero one_ne_zero, fun _ => ?_, ?_⟩, ?_⟩
            · rw [hfile]
              exact hback.tag.trans hsteady.read
            · rw [hfile]
              exact hback.others.trans hwritten.others
            · rw [hfile]
              exact hold

end Script

/-- The tag of the last update that succeeded. -/
def lastDeployed (initial : List Byte) (finished : List (List Byte × ℕ)) : List Byte :=
  ((finished.filter fun update => update.2 = 0).getLast?.map Prod.fst).getD initial

theorem lastDeployed_append (initial tag : List Byte) (exitCode : ℕ)
    (finished : List (List Byte × ℕ)) :
    lastDeployed initial (finished ++ [(tag, exitCode)]) =
      if exitCode = 0 then tag else lastDeployed initial finished := by
  rw [lastDeployed, List.filter_append]
  split_ifs with hzero
  · simp [hzero]
  · simp [hzero, lastDeployed]

section Tags

variable {other : List Byte → List Byte → Option (List Byte)}
  {script project service home : JsString}

/-- The environment file is as the updates so far have left it. -/
structure TagKept (s₀ s : Host) : Prop where
  steady : Steady (s.envFile.getD [])
  tag : effectiveTag (s.envFile.getD []) =
    lastDeployed (effectiveTag (s₀.envFile.getD [])) s.finished
  others : otherLines (s.envFile.getD []) = otherLines (s₀.envFile.getD [])

theorem TagKept.step (hpath : HostPath home) {s₀ s s' : Host} {e : UpdateEvent}
    (hinst : Installed project service home s) (hkept : TagKept s₀ s) (hwhole : e.Whole)
    (hstep : s.step other script home e = some s') : TagKept s₀ s' := by
  cases e with
  | request version replies =>
      obtain rfl := Option.some.inj hstep
      rcases request_cases hpath hinst script version replies with h | h | ⟨args, -, h⟩
      · rwa [h]
      · rw [h]
        exact ⟨hkept.steady, hkept.tag, hkept.others⟩
      · rw [h]
        exact ⟨hkept.steady, hkept.tag, hkept.others⟩
  | script o fresh =>
      obtain ⟨args, hupdater, hmap⟩ := Option.bind_eq_some_iff.mp hstep
      obtain ⟨after, hafter, rfl⟩ := Option.map_eq_some_iff.mp hmap
      have htag := (hinst.updater args hupdater).tag
      obtain ⟨⟨hset, hback, hothers⟩, hsteady⟩ := updateScript_steady other
        { o with config := o.config && decide (workspace args = some home) } htag hkept.steady
      refine ⟨hsteady, ?_, hothers.trans hkept.others⟩
      rw [lastDeployed_append]
      split_ifs with hzero
      · exact hset hzero
      · exact (hback hzero).trans hkept.tag
  | cutShort wrote fresh => exact hwhole.elim

end Tags

theorem oldInstallation_steady : Steady (oldInstallation.envFile.getD []) := by
  refine ⟨fun hnone => absurd hnone (by decide +kernel), by decide +kernel, ?_⟩
  have htag : readTag (oldInstallation.envFile.getD []) = utf8Bytes (js "0.8.0") := by
    decide +kernel
  rw [htag]
  exact (tag_plain (by decide +kernel)).1

end OpticsAgent.Update
