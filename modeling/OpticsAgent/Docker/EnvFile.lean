import Mathlib
import OpticsAgent.Docker.Deploy
import OpticsAgent.Node.Utf8RoundTrip
import OpticsAgent.Utility.SigningText

/-!
The `.env` file of a compose project. `writeEnvFile` joins `key=value` texts with
newlines and quotes nothing, and the file system stores it in UTF-8; here the
file is read back the way it is meant, line by line, each line cut at its first
`=`.
-/

namespace OpticsAgent.Docker

open OpticsAgent.Ecma OpticsAgent.Node OpticsAgent.Lib Agent

/-! ## Reading -/

/-- A line cut at its first `=`. -/
def cutAtEquals (line : JsString) : JsString × JsString :=
  (line.takeWhile (· ≠ 61), (line.dropWhile (· ≠ 61)).drop 1)

def readEnv (file : List Byte) : List (JsString × JsString) :=
  (splitUnit 10 (utf8Text file)).map cutAtEquals

theorem cutAtEquals_append {key : JsString} (h : 61 ∉ key) (value : JsString) :
    cutAtEquals (key ++ 61 :: value) = (key, value) := by
  have hkey : ∀ c ∈ key, decide (c ≠ 61) = true := by
    intro c hc
    rw [decide_eq_true_iff]
    rintro rfl
    exact h hc
  rw [cutAtEquals, List.takeWhile_append_of_pos hkey, List.dropWhile_append_of_pos hkey,
    List.takeWhile_cons_of_neg (by simp), List.dropWhile_cons_of_neg (by simp), List.append_nil]
  rfl

/-- A line without `=` is a key with no value. -/
theorem cutAtEquals_of_not_mem {line : JsString} (h : 61 ∉ line) :
    cutAtEquals line = (line, []) := by
  have hline : ∀ c ∈ line, decide (c ≠ 61) = true := by
    intro c hc
    rw [decide_eq_true_iff]
    rintro rfl
    exact h hc
  rw [cutAtEquals, List.takeWhile_eq_self_iff.mpr hline, List.dropWhile_eq_nil_iff.mpr hline]
  rfl

/-- An entry that a line of UTF-8 text can hold. -/
def Writable (entry : JsString × JsString) : Prop :=
  10 ∉ entry.2 ∧ isWellFormed entry.1 = true ∧ isWellFormed entry.2 = true

instance (entry : JsString × JsString) : Decidable (Writable entry) :=
  inferInstanceAs (Decidable (_ ∧ _))

theorem writable_cutAtEquals {line : JsString} (hline : 10 ∉ line)
    (hwell : isWellFormed line = true) : Writable (cutAtEquals line) := by
  by_cases hequals : 61 ∈ line
  · obtain ⟨key, value, rfl, hkey⟩ := List.eq_append_cons_of_mem hequals
    rw [isWellFormed_append_cons (by decide), Bool.and_eq_true] at hwell
    rw [cutAtEquals_append hkey]
    refine ⟨?_, hwell⟩
    intro hmem
    exact hline (List.mem_append_right _ (List.mem_cons_of_mem _ hmem))
  · rw [cutAtEquals_of_not_mem hequals]
    exact ⟨List.not_mem_nil, hwell, rfl⟩

/-- Whatever was written, what is read is on one line and well formed. -/
theorem writable_of_mem_readEnv {content : JsString} {entry : JsString × JsString}
    (h : entry ∈ readEnv (utf8Bytes content)) : Writable entry := by
  obtain ⟨line, hline, rfl⟩ := List.mem_map.mp h
  have hwell := isWellFormed_decoded content
  rw [← intercalate_splitUnit 10 (utf8Text (utf8Bytes content)),
    isWellFormed_intercalate (by decide)] at hwell
  exact writable_cutAtEquals (not_mem_of_mem_splitUnit hline) (hwell line hline)

/-! ## What the file is for -/

/-- The environment of a command, as a record with plain keys. -/
structure PlainEnv (env : Props JsString) : Prop where
  order : OwnOrder env
  nonempty : ∀ key ∈ keys env, key ≠ []
  noEquals : ∀ key ∈ keys env, 61 ∉ key
  oneLine : ∀ key ∈ keys env, 10 ∉ key

/-- The variables a deployment is meant to have: the user's, and `PORT` where
the user gave none. -/
def Intended (data : DeployCommand) (entry : JsString × JsString) : Prop :=
  entry ∈ data.env.getD [] ∨
    (js "PORT" ∉ keys (data.env.getD []) ∧ ∃ mapping,
      (resolvePortMappings data).head? = some mapping ∧
        entry = (js "PORT", mapping.containerPort.toText))

/-- The file with this content holds each intended variable, nothing else, and
none twice. -/
structure CarriesEnv (data : DeployCommand) (content : JsString) : Prop where
  entries : ∀ entry, entry ∈ readEnv (utf8Bytes content) ↔ Intended data entry
  once : (keys (readEnv (utf8Bytes content))).Nodup

/-- The variables in the order in which they are written. -/
def finalEnv (data : DeployCommand) : Props JsString :=
  let containerPort := ((resolvePortMappings data).head?.map (·.containerPort)).getD
    (data.serviceContainerPort.getD data.servicePort)
  if ownValue (data.env.getD []) (js "PORT") = none then
    setProp (data.env.getD []) (js "PORT") containerPort.toText
  else data.env.getD []

theorem resolvePortMappings_ne_nil (data : DeployCommand) : resolvePortMappings data ≠ [] := by
  unfold resolvePortMappings
  dsimp only
  split_ifs with h
  · exact h
  · exact List.cons_ne_nil _ _

theorem mem_finalEnv (data : DeployCommand) (entry : JsString × JsString) :
    entry ∈ finalEnv data ↔ Intended data entry := by
  obtain ⟨mapping, others, hmappings⟩ :=
    List.exists_cons_of_ne_nil (resolvePortMappings_ne_nil data)
  unfold finalEnv Intended
  rw [hmappings]
  dsimp only [List.head?_cons, Option.map_some, Option.getD_some]
  split_ifs with hport
  · have hfree := (ownValue_eq_none_iff _ _).mp hport
    rw [setProp, if_neg hfree, mem_insertProp]
    constructor
    · rintro (rfl | hold)
      · exact .inr ⟨hfree, mapping, rfl, rfl⟩
      · exact .inl hold
    · rintro (hold | ⟨-, _, ⟨rfl⟩, rfl⟩)
      · exact .inr hold
      · exact .inl rfl
  · have hgiven := (ownValue_eq_none_iff _ _).not.mp hport
    constructor
    · exact .inl
    · rintro (hold | ⟨hfree, -⟩)
      · exact hold
      · exact absurd hfree hgiven

theorem ownOrder_finalEnv {data : DeployCommand} (henv : OwnOrder (data.env.getD [])) :
    OwnOrder (finalEnv data) := by
  unfold finalEnv
  dsimp only
  split_ifs
  · exact ownOrder_setProp _ _ henv
  · exact henv

/-- `PORT` is always there, so the file is always written. -/
theorem finalEnv_ne_nil (data : DeployCommand) : finalEnv data ≠ [] := by
  intro hnil
  have hvalue : ownValue (finalEnv data) (js "PORT") = none := by
    rw [hnil]
    rfl
  unfold finalEnv at hvalue
  dsimp only at hvalue
  split_ifs at hvalue with hport
  · rw [ownValue_setProp, if_pos rfl] at hvalue
    cases hvalue
  · exact hport hvalue

theorem writeEnvFile_eq (buildDir : JsString) (data : DeployCommand) :
    writeEnvFile buildDir data = (do
      await (← call (.writeFileSync (Path.join [buildDir, js ".env"])
        ([10].intercalate (envLines (finalEnv data)))))) := by
  change (if finalEnv data = [] then pure () else _) = _
  rw [if_neg (finalEnv_ne_nil data)]
  rfl

theorem readEnv_envLines {env : Props JsString} (hne : env ≠ [])
    (hkeys : ∀ entry ∈ env, 61 ∉ entry.1 ∧ 10 ∉ entry.1)
    (hwritable : ∀ entry ∈ env, Writable entry) :
    readEnv (utf8Bytes ([10].intercalate (envLines env))) = env := by
  have hline : ∀ line ∈ envLines env, 10 ∉ line := by
    intro line hline
    obtain ⟨entry, hentry, rfl⟩ := List.mem_map.mp hline
    have hequals : (10 : CodeUnit) ∉ js "=" := by decide
    rw [List.mem_append, List.mem_append, not_or, not_or]
    exact ⟨⟨(hkeys entry hentry).2, hequals⟩, (hwritable entry hentry).1⟩
  have hwell : ∀ line ∈ envLines env, isWellFormed line = true := by
    intro line hline
    obtain ⟨entry, hentry, rfl⟩ := List.mem_map.mp hline
    have hparts := (hwritable entry hentry).2
    have hjoined : entry.1 ++ js "=" ++ entry.2 = entry.1 ++ 61 :: entry.2 :=
      List.append_assoc _ _ _
    rw [hjoined, isWellFormed_append_cons (by decide), Bool.and_eq_true]
    exact hparts
  have hlines : envLines env ≠ [] := by
    intro hnil
    exact hne (List.map_eq_nil_iff.mp hnil)
  have hcut : ∀ entry ∈ env, cutAtEquals (entry.1 ++ js "=" ++ entry.2) = entry := by
    intro entry hentry
    rw [List.append_assoc]
    exact cutAtEquals_append (hkeys entry hentry).1 entry.2
  have hcontent : utf8Text (utf8Bytes ([10].intercalate (envLines env))) =
      [10].intercalate (envLines env) := by
    apply utf8Text_utf8Bytes_of_wellFormed
    exact (isWellFormed_intercalate (by decide) _).mpr hwell
  rw [readEnv, hcontent, splitUnit_intercalate hlines hline, envLines, List.map_map]
  exact (List.map_congr_left hcut).trans (List.map_id env)

theorem plain_key_of_intended {data : DeployCommand} (henv : PlainEnv (data.env.getD []))
    {entry : JsString × JsString} (h : Intended data entry) : 61 ∉ entry.1 ∧ 10 ∉ entry.1 := by
  rcases h with hold | ⟨-, mapping, -, rfl⟩
  · have hkey := List.mem_map_of_mem (f := Prod.fst) hold
    exact ⟨henv.noEquals _ hkey, henv.oneLine _ hkey⟩
  · change 61 ∉ js "PORT" ∧ 10 ∉ js "PORT"
    decide

theorem wellFormed_port : isWellFormed (js "PORT") = true := by decide

/-- Reading the file gives the intended variables when a line can hold every
entry of the user, and only then. -/
theorem carriesEnv_iff {data : DeployCommand} (henv : PlainEnv (data.env.getD [])) :
    CarriesEnv data ([10].intercalate (envLines (finalEnv data))) ↔
      ∀ entry ∈ data.env.getD [], Writable entry := by
  constructor
  · intro hcarries entry hentry
    apply writable_of_mem_readEnv
    exact (hcarries.entries entry).mpr (.inl hentry)
  · intro hwritable
    have hread : readEnv (utf8Bytes ([10].intercalate (envLines (finalEnv data)))) =
        finalEnv data := by
      apply readEnv_envLines (finalEnv_ne_nil data)
      · intro entry hentry
        exact plain_key_of_intended henv ((mem_finalEnv data entry).mp hentry)
      · intro entry hentry
        rcases (mem_finalEnv data entry).mp hentry with hold | ⟨-, mapping, -, rfl⟩
        · exact hwritable entry hold
        · exact ⟨(plain_toText mapping.containerPort).no_newline, wellFormed_port,
            isWellFormed_of_ascii (ascii_toText mapping.containerPort)⟩
    refine ⟨?_, ?_⟩
    · rw [hread]
      exact mem_finalEnv data
    · rw [hread]
      exact (ownOrder_finalEnv henv.order).nodup

/-- What `writeEnvFile` writes carries the intended variables exactly when a line
of UTF-8 text can hold every entry of the user. -/
theorem env_file_carries_iff (buildDir : JsString) (data : DeployCommand)
    (henv : PlainEnv (data.env.getD [])) :
    ∃ content, writeEnvFile buildDir data = (do
        await (← call (.writeFileSync (Path.join [buildDir, js ".env"]) content))) ∧
      (CarriesEnv data content ↔ ∀ entry ∈ data.env.getD [], Writable entry) :=
  ⟨_, writeEnvFile_eq buildDir data, carriesEnv_iff henv⟩

/-- A key whose value brings a second variable along. -/
def twoLines : DeployCommand where
  serviceIndex := 1
  sourceUrl := .one (js "https://example.com/app.git")
  serviceName := js "app"
  serviceVersion := js "1"
  servicePort := Number.ofInt 80
  deployPreset := js "COMPOSE"
  env := some [(js "KEY", js "a\nPORT=1")]

theorem plainEnv_twoLines : PlainEnv (twoLines.env.getD []) where
  order := List.pairwise_singleton _ _
  nonempty := by decide
  noEquals := by decide
  oneLine := by decide

theorem env_file_carries_iff_two_lines :
    ∃ content, writeEnvFile (js "/data/build/app") twoLines = (do
        await (← call (.writeFileSync (Path.join [js "/data/build/app", js ".env"]) content))) ∧
      (CarriesEnv twoLines content ↔ ∀ entry ∈ twoLines.env.getD [], Writable entry) :=
  env_file_carries_iff (js "/data/build/app") twoLines plainEnv_twoLines

/-- The value is cut at its newline, and its second line is read as `PORT`. -/
theorem env_file_carries_fails :
    PlainEnv (twoLines.env.getD []) ∧ ∃ content,
      writeEnvFile (js "/data/build/app") twoLines = (do
        await (← call (.writeFileSync (Path.join [js "/data/build/app", js ".env"]) content))) ∧
      (js "PORT", js "1") ∈ readEnv (utf8Bytes content) ∧ ¬ CarriesEnv twoLines content := by
  refine ⟨plainEnv_twoLines, _, writeEnvFile_eq _ _, ?_, ?_⟩
  · decide +kernel
  · rw [carriesEnv_iff plainEnv_twoLines]
    decide

end OpticsAgent.Docker
