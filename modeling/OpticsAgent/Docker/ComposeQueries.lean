import Mathlib
import OpticsAgent.Docker.ContainerQueries
import OpticsAgent.Docker.LabelText
import OpticsAgent.Docker.StatusColumn

/-!
The two ways to list a compose project. `compose ps` is asked while the build
directory is there, `docker ps` when it is gone. The second never looks for the
exit code in the status column, so a container that failed is stopped there, and
it finds the service in a list of labels that is cut at every comma.
-/

namespace OpticsAgent.Docker

open OpticsAgent.Ecma OpticsAgent.Node OpticsAgent.Lib

/-! ## The service label -/

/-- The label of the service is in the column, and nothing that comes later
reads like another. -/
def ComposeContainer.ServiceReadable (c : ComposeContainer) : Prop :=
  ∃ before after, splitUnit 44 (labelsText c.labels) =
      before ++ (serviceLabel ++ 61 :: c.service) :: after ∧
    ∀ piece ∈ after, piece.takeWhile (· ≠ 61) ≠ serviceLabel

theorem serviceLabel_plain : serviceLabel ≠ [] ∧ 61 ∉ serviceLabel := by
  decide +kernel

theorem labelEntry_eq_service_iff {piece value : JsString} (hvalue : value ≠ []) :
    labelEntry piece = some (serviceLabel, value) ↔ piece = serviceLabel ++ 61 :: value := by
  constructor
  · intro h
    obtain ⟨rest, hrest⟩ := splitUnit_eq_cons 61 piece
    have hkey := labelEntry_key h
    rw [hkey] at hrest
    rw [labelEntry, hrest] at h
    simp only [if_neg serviceLabel_plain.1, Option.some.injEq, Prod.mk.injEq, true_and] at h
    have hpiece := intercalate_splitUnit 61 piece
    rw [hrest] at hpiece
    cases rest with
    | nil => exact absurd h.symm hvalue
    | cons first others =>
        rw [List.intercalate_cons_cons, h] at hpiece
        rw [← hpiece]
        simp
  · rintro rfl
    exact labelEntry_label serviceLabel_plain.1 serviceLabel_plain.2 value

/-- `labelsToRecord` finds the service exactly when it can be read. -/
theorem service_found_iff (c : ComposeContainer) :
    ownValue (labelsToRecord (labelsText c.labels)) serviceLabel = some c.service ↔
      c.ServiceReadable := by
  by_cases hempty : labelsText c.labels = []
  · apply iff_of_false
    · rw [labelsToRecord, if_pos hempty]
      simp
    · rintro ⟨before, after, hsplit, -⟩
      rw [hempty] at hsplit
      have hone : serviceLabel ++ 61 :: c.service ∈ splitUnit 44 [] := by
        rw [hsplit]
        simp
      simp [splitUnit] at hone
  rw [labelsToRecord_eq _ hempty, ownValue_buildProps_eq_some_iff]
  constructor
  · rintro ⟨before, after, hentries, hfree⟩
    obtain ⟨front, back, hpieces, -, hback⟩ := List.filterMap_eq_append_iff.mp hentries
    obtain ⟨skipped, piece, rest, rfl, -, hpiece, rfl⟩ := List.filterMap_eq_cons_iff.mp hback
    rw [(labelEntry_eq_service_iff c.inService).mp hpiece] at hpieces
    refine ⟨front ++ skipped, rest, ?_,
      (not_mem_keys_labelEntry_iff serviceLabel_plain.1 rest).mp hfree⟩
    rw [hpieces, List.append_assoc]
  · rintro ⟨before, after, hpieces, hfree⟩
    refine ⟨before.filterMap labelEntry, after.filterMap labelEntry, ?_,
      (not_mem_keys_labelEntry_iff serviceLabel_plain.1 after).mpr hfree⟩
    have hpiece : labelEntry (serviceLabel ++ 61 :: c.service) = some (serviceLabel, c.service) :=
      (labelEntry_eq_service_iff c.inService).mpr rfl
    rw [hpieces, List.filterMap_append, List.filterMap_cons_some hpiece]

/-! ## The two snapshots -/

/-- What is compared of a container. -/
def outline (c : ContainerState) : JsString × Option JsString × ContainerStatus :=
  (c.name, c.service, c.status)

/-- The same containers, in any order. -/
def Agree (a b : Except JsError (List ContainerState)) : Prop :=
  ∃ found others, a = .ok found ∧ b = .ok others ∧
    (found.map outline).Perm (others.map outline)

/-- What a container is read into, with its exit code or without. -/
def readOutline (codeSeen : Bool) (c : ComposeContainer) :
    JsString × Option JsString × ContainerStatus :=
  (c.name, if codeSeen then some c.service
    else ownValue (labelsToRecord (labelsText c.labels)) serviceLabel, c.status codeSeen)

theorem map_outline {codeSeen : Bool} {containers : List ComposeContainer}
    {found : List ContainerState} (h : List.Forall₂ (ReadAs codeSeen) containers found) :
    found.map outline = containers.map (readOutline codeSeen) := by
  induction h with
  | nil => rfl
  | cons hfirst _ ih =>
      obtain ⟨⟨hname, hstatus⟩, hservice⟩ := hfirst
      rw [List.map_cons, List.map_cons, ih, outline, hname, hservice, hstatus]
      rfl

/-- With distinct names there is one way to match two readings. -/
theorem perm_readOutline_iff {containers : List ComposeContainer}
    (hnames : (containers.map fun c => c.name).Nodup) :
    (containers.map (readOutline true)).Perm (containers.map (readOutline false)) ↔
      ∀ c ∈ containers, readOutline true c = readOutline false c := by
  constructor
  · intro hperm c hc
    have hmem := hperm.subset (List.mem_map_of_mem hc)
    obtain ⟨other, hother, hsame⟩ := List.mem_map.mp hmem
    have hname : other.name = c.name := congrArg Prod.fst hsame
    rw [← hsame, List.inj_on_of_nodup_map hnames hother hc hname]
  · intro h
    rw [List.map_congr_left h]

theorem status_codeSeen_iff (c : Container) : c.status true = c.status false ↔ ¬ c.Failed := by
  unfold Container.status Container.Failed
  cases c.state with
  | exited | dead => by_cases hcode : c.exitCode = 0 <;> simp [hcode]
  | _ => simp

theorem readOutline_eq_iff (c : ComposeContainer) :
    readOutline true c = readOutline false c ↔ c.ServiceReadable ∧ ¬ c.Failed := by
  rw [← service_found_iff, ← status_codeSeen_iff]
  simp only [readOutline, Prod.mk.injEq, if_true, true_and]
  exact and_congr eq_comm Iff.rfl

theorem healthRead {casing : CaseMapping} (hcasing : LowersAscii casing) (c : ComposeContainer) :
    HealthRead casing c := by
  intro hrunning elapsed
  have hcolumn : c.statusText elapsed = js "Up " ++ elapsed.text ++ healthSuffix c.health := by
    rw [Container.statusText, hrunning]
  rw [hcolumn]
  exact healthFromStatus_running hcasing elapsed c.health

variable {W : Type}

/-- Whether the build directory is still there makes no difference exactly when
every service can be read from the labels and no container has failed. -/
theorem compose_queries_agree_iff (settings : Settings) (hcasing : LowersAscii settings.casing)
    (host : Host W) {project : JsString} {containers others : List ComposeContainer}
    {composePs composePs' ps ps' : CliResult} {s t : Session W}
    (hnames : (containers.map fun c => c.name).Nodup) (hsame : containers.Perm others)
    (hpresent : ShowsProject settings host project containers true composePs ps s.world)
    (hworks : composePs.status = some 0 ∧ ps.status = some 0)
    (habsent : ShowsProject settings host project others false composePs' ps' t.world)
    (hworks' : ps'.status = some 0) :
    Agree (s.run host (listComposeContainers settings project)).1
        (t.run host (listComposeContainers settings project)).1 ↔
      ∀ c ∈ containers, c.ServiceReadable ∧ ¬ c.Failed := by
  obtain ⟨found, hfound, hby, hnot⟩ := run_listComposeContainers settings hpresent
    fun c _ => healthRead hcasing c
  obtain ⟨found', hfound', -, hnot'⟩ := run_listComposeContainers settings habsent
    fun c _ => healthRead hcasing c
  have hread : List.Forall₂ (ReadAs true) containers found := by
    by_cases hempty : containers = []
    · have hnone := hnot fun h => h.2.2 hempty
      rw [if_pos hworks.2, hempty, List.forall₂_nil_left_iff] at hnone
      rw [hempty, hnone]
      exact .nil
    · exact hby ⟨rfl, hworks.1, hempty⟩
  have hread' : List.Forall₂ (ReadAs false) others found' := by
    have hlabels := hnot' fun h => absurd h.1 (by decide)
    rwa [if_pos hworks'] at hlabels
  have hagree : Agree (s.run host (listComposeContainers settings project)).1
      (t.run host (listComposeContainers settings project)).1 ↔
        (found.map outline).Perm (found'.map outline) := by
    rw [hfound, hfound']
    constructor
    · rintro ⟨xs, ys, ⟨rfl⟩, ⟨rfl⟩, hperm⟩
      exact hperm
    · exact fun hperm => ⟨found, found', rfl, rfl, hperm⟩
  rw [hagree, map_outline hread, map_outline hread']
  have horder : (others.map (readOutline false)).Perm (containers.map (readOutline false)) :=
    (hsame.map _).symm
  have hcommon : (containers.map (readOutline true)).Perm (others.map (readOutline false)) ↔
      (containers.map (readOutline true)).Perm (containers.map (readOutline false)) :=
    ⟨fun h => h.trans horder, fun h => h.trans horder.symm⟩
  rw [hcommon, perm_readOutline_iff hnames]
  exact forall₂_congr fun c _ => readOutline_eq_iff c

/-! ## Reading the columns of a sample -/

def stringMember (row : JsValue) (key : JsString) : Option JsString :=
  match row.member key with
  | .ok (.str s) => some s
  | _ => none

def numberMember (row : JsValue) (key : JsString) : Option Number :=
  match row.member key with
  | .ok (.num x) => some x
  | _ => none

theorem member_of_string {row : JsValue} {key s : JsString} (h : stringMember row key = some s) :
    row.member key = .ok (.str s) := by
  unfold stringMember at h
  split at h
  · rename_i hrow
    rw [hrow, Option.some.inj h]
  · cases h

theorem member_of_number {row : JsValue} {key : JsString} {x : Number}
    (h : numberMember row key = some x) : row.member key = .ok (.num x) := by
  unfold numberMember at h
  split at h
  · rename_i hrow
    rw [hrow, Option.some.inj h]
  · cases h

/-- The columns of `compose ps` that are read. -/
def composeColumns (row : JsValue) : List (Option JsString) × Option Number :=
  ([js "Name", js "Service", js "State", js "Health"].map (stringMember row),
    numberMember row (js "ExitCode"))

def psColumns (row : JsValue) : List (Option JsString) :=
  [js "Names", js "State", js "Status", js "Labels"].map (stringMember row)

theorem lists_of_columns {α β : Type} [DecidableEq β] {isRow : α → JsValue → Prop}
    {columns : JsValue → β} {expected : α → β}
    (hrow : ∀ a row, expected a = columns row → isRow a row) {containers : List α}
    {result : CliResult}
    (h : containers.map expected = (parseJsonOutput result.stdout).map columns) :
    Lists isRow containers result := by
  have hall := (List.forall₂_eq_eq_eq (α := β)).symm ▸ h
  rw [List.forall₂_map_left_iff, List.forall₂_map_right_iff] at hall
  exact hall.imp hrow

theorem lists_composeRow {containers : List ComposeContainer} {result : CliResult}
    (h : containers.map (fun c => ([some c.name, some c.service, some c.state.text,
      some (healthText c.health)], some (.ofInt c.exitCode))) =
        (parseJsonOutput result.stdout).map composeColumns) :
    Lists ComposeRow containers result := by
  apply lists_of_columns _ h
  intro c row hcolumns
  simp only [composeColumns, List.map_cons, List.map_nil, Prod.mk.injEq, List.cons.injEq,
    and_true] at hcolumns
  obtain ⟨⟨hname, hservice, hstate, hhealth⟩, hcode⟩ := hcolumns
  exact ⟨member_of_string hname.symm, member_of_string hservice.symm,
    member_of_string hstate.symm, member_of_number hcode.symm, member_of_string hhealth.symm⟩

theorem lists_psRow (elapsed : Elapsed) {containers : List ComposeContainer} {result : CliResult}
    (h : containers.map (fun c => [some c.name, some c.state.text, some (c.statusText elapsed),
      some (labelsText c.labels)]) = (parseJsonOutput result.stdout).map psColumns) :
    Lists PsRow containers result := by
  apply lists_of_columns _ h
  intro c row hcolumns
  simp only [psColumns, List.map_cons, List.map_nil, List.cons.injEq, and_true] at hcolumns
  obtain ⟨hname, hstate, hstatus, hlabels⟩ := hcolumns
  exact ⟨member_of_string hname.symm, member_of_string hstate.symm,
    ⟨elapsed, member_of_string hstatus.symm⟩, member_of_string hlabels.symm⟩

/-! ## A worker that ended -/

theorem worker_named : js "app-worker-1" ≠ [] := js_ne_nil (by decide)

theorem worker_inService : js "worker" ≠ [] := js_ne_nil (by decide)

/-- The only container of the project `app`, after it ended with this code. -/
def endedWorker (code : ℤ) : ComposeContainer where
  name := js "app-worker-1"
  state := .exited
  exitCode := code
  health := none
  named := worker_named
  service := js "worker"
  labels := [(js "com.docker.compose.project", js "app"), (serviceLabel, js "worker")]
  inService := worker_inService

def composeSample (code : ℤ) : JsString :=
  js "\x7b\"ExitCode\":" ++ (Number.ofInt code).toText ++
    js ",\"Health\":\"\",\"Name\":\"app-worker-1\",\"Service\":\"worker\",\"State\":\"exited\"\x7d\n"

def psSample (code : ℤ) : JsString :=
  js "\x7b\"Labels\":\"com.docker.compose.project=app,com.docker.compose.service=worker\"" ++
    js ",\"Names\":\"app-worker-1\",\"State\":\"exited\",\"Status\":\"Exited (" ++
      (Number.ofInt code).toText ++ js ") 5 seconds ago\"\x7d\n"

/-- A docker with that container only, where the build directory is there or not. -/
def workerHost (code : ℤ) : Host Bool := fun c present =>
  (match c with
    | .existsSync _ => present
    | .runSync args _ =>
        if args = composePsArgs (js "app") then ⟨some 0, composeSample code, []⟩
        else if args = projectPsArgs (js "app") then ⟨some 0, psSample code, []⟩
        else ⟨some 1, [], []⟩
    | c => willingAnswer c, present)

theorem lowersAscii_asciiCase : LowersAscii asciiCase := fun _ _ => rfl

def ListsWorker (code : ℤ) : Prop :=
  Lists ComposeRow [endedWorker code] ⟨some 0, composeSample code, []⟩ ∧
    Lists PsRow [endedWorker code] ⟨some 0, psSample code, []⟩

theorem listsWorker {code : ℤ} (h : code ∈ ([0, 137] : List ℤ)) : ListsWorker code := by
  have hcolumns : ∀ code ∈ ([0, 137] : List ℤ),
      [endedWorker code].map (fun c => ([some c.name, some c.service, some c.state.text,
        some (healthText c.health)], some (.ofInt c.exitCode))) =
          (parseJsonOutput (composeSample code)).map composeColumns ∧
      [endedWorker code].map (fun c => [some c.name, some c.state.text,
        some (c.statusText (.counted 5 .seconds)), some (labelsText c.labels)]) =
          (parseJsonOutput (psSample code)).map psColumns := by
    decide +kernel
  obtain ⟨hcompose, hps⟩ := hcolumns code h
  exact ⟨lists_composeRow hcompose, lists_psRow (.counted 5 .seconds) hps⟩

theorem projectPsArgs_ne (projectName other : JsString) :
    projectPsArgs projectName ≠ composePsArgs other := by
  intro h
  have hlength := congrArg List.length h
  simp [projectPsArgs, composePsArgs] at hlength

theorem showsProject_worker {code : ℤ} (h : ListsWorker code) (present : Bool) :
    ShowsProject hostSettings (workerHost code) (js "app") [endedWorker code] present
      ⟨some 0, composeSample code, []⟩ ⟨some 0, psSample code, []⟩ present := by
  have hother := projectPsArgs_ne (js "app") (js "app")
  refine ⟨rfl, fun _ => ⟨?_, fun _ => h.1⟩, ⟨?_, fun _ => h.2⟩⟩
  · simp only [workerHost, if_true]
  · simp only [workerHost, if_neg hother, if_true]

/-- The snapshot of the project, with the build directory there or not. -/
def workerSnapshot (code : ℤ) (present : Bool) : Except JsError (List ContainerState) :=
  ((⟨present, {}, []⟩ : Session Bool).run (workerHost code)
    (listComposeContainers hostSettings (js "app"))).1

theorem compose_queries_agree_iff_clean :
    Agree (workerSnapshot 0 true) (workerSnapshot 0 false) := by
  have hnames : ([endedWorker 0].map fun c => c.name).Nodup := List.nodup_singleton _
  refine (compose_queries_agree_iff hostSettings lowersAscii_asciiCase (workerHost 0)
    (s := ⟨true, {}, []⟩) (t := ⟨false, {}, []⟩) hnames (List.Perm.refl _)
    (showsProject_worker (listsWorker (by simp)) true) ⟨rfl, rfl⟩
    (showsProject_worker (listsWorker (by simp)) false) rfl).mpr ?_
  intro c hc
  obtain rfl := List.mem_singleton.mp hc
  refine ⟨⟨[js "com.docker.compose.project=app"], [], ?_, ?_⟩, ?_⟩
  · decide +kernel
  · exact fun piece hpiece => absurd hpiece List.not_mem_nil
  · exact fun hfailed => hfailed.2 rfl

/-- A worker that was killed has failed as long as its build directory is there,
and is stopped afterwards. -/
theorem compose_queries_agree_fails :
    ¬ Agree (workerSnapshot 137 true) (workerSnapshot 137 false) := by
  rintro ⟨found, others, hfound, hothers, hperm⟩
  have hfailed : (workerSnapshot 137 true).toOption.map (·.map outline) =
      some [(js "app-worker-1", some (js "worker"), .failed)] := by
    decide +kernel
  have hstopped : (workerSnapshot 137 false).toOption.map (·.map outline) =
      some [(js "app-worker-1", some (js "worker"), .stopped)] := by
    decide +kernel
  rw [hfound] at hfailed
  rw [hothers] at hstopped
  have hfound' : found.map outline = _ := Option.some.inj hfailed
  have hothers' : others.map outline = _ := Option.some.inj hstopped
  rw [hfound', hothers'] at hperm
  have hsame := List.singleton_perm_singleton.mp hperm
  cases congrArg (fun x => x.2.2) hsame

end OpticsAgent.Docker
