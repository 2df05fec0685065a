import Mathlib
import OpticsAgent.Docker.Deploy

/-!
The ports of a deployment. `resolvePortMappings` keeps the valid entries of a
list; `runContainer` writes them into a record keyed by the container port,
where an entry takes the place of an earlier one under the same key.
-/

namespace OpticsAgent.Docker

open OpticsAgent.Ecma OpticsAgent.Node OpticsAgent.Lib Agent

/-! ## Ports as keys and as text -/

theorem isPort_ofInt {n : ℤ} (hlow : 1 ≤ n) (hhigh : n ≤ 65535) :
    isPort (Number.ofInt n) = true := by
  have hsmall : |n| < 2 ^ 53 := by
    rw [abs_lt]
    omega
  obtain ⟨x, hx, hvalue⟩ := Number.ofInt_eq_finite n hsmall
  rw [hx, isPort, Number.toInteger?, hvalue]
  simp [hlow, hhigh]

theorem isPort_finite {port : Number} (h : isPort port = true) :
    ∃ x : Double, port = .finite x ∧ x.mag ≠ 0 := by
  cases port with
  | nan => simp [isPort, Number.toInteger?] at h
  | infinity neg => simp [isPort, Number.toInteger?] at h
  | finite x =>
      refine ⟨x, rfl, ?_⟩
      intro hzero
      have hvalue : x.value = 0 := (Double.value_eq_zero_iff x).mpr hzero
      simp [isPort, Number.toInteger?, hvalue] at h

/-- Two ports with one text are one port. -/
theorem port_toText_inj {a b : Number} (ha : isPort a = true) (hb : isPort b = true)
    (h : a.toText = b.toText) : a = b := by
  obtain ⟨x, rfl, hx⟩ := isPort_finite ha
  obtain ⟨y, rfl, hy⟩ := isPort_finite hb
  have hliteral : numberLiteral x = numberLiteral y := by
    have hread := parseLiteral_numberLiteral x [] endsNumber_nil
    have htext : (numberLiteral x).text = (numberLiteral y).text := h
    rw [htext, parseLiteral_numberLiteral y [] endsNumber_nil] at hread
    exact (congrArg Prod.fst (Option.some.inj hread)).symm
  have hnumber := numberLiteral_number x
  rw [hliteral, numberLiteral_number y] at hnumber
  rw [Double.clearNegZero, if_neg hy, Double.clearNegZero, if_neg hx] at hnumber
  exact hnumber.symm

theorem portKey_inj {a b : Number} (ha : isPort a = true) (hb : isPort b = true)
    (h : portKey a = portKey b) : a = b := by
  apply port_toText_inj ha hb
  exact List.append_cancel_right h

/-! ## What is applied -/

/-- An entry of the command with two ports. -/
structure ValidMapping (data : DeployCommand) (mapping : ServicePortMapping) : Prop where
  listed : mapping ∈ data.servicePortMappings.getD []
  host : isPort mapping.hostPort = true
  container : isPort mapping.containerPort = true

/-- The pair of ports, as docker is told of it. -/
def binding (mapping : ServicePortMapping) : JsString × JsString :=
  (portKey mapping.containerPort, mapping.hostPort.toText)

/-- The pairs bound are the valid pairs of the command, and their container
ports are exposed. -/
structure PortsApplied (data : DeployCommand) (spec : ContainerSpec) : Prop where
  bound : ∀ entry,
    entry ∈ spec.portBindings ↔ ∃ mapping, ValidMapping data mapping ∧ binding mapping = entry
  exposed : ∀ entry ∈ spec.portBindings, entry.1 ∈ spec.exposedPorts

/-- No container port is wanted on two host ports. -/
def OneHostPort (data : DeployCommand) : Prop :=
  ∀ a b, ValidMapping data a → ValidMapping data b → a.containerPort = b.containerPort →
    a.hostPort = b.hostPort

theorem mem_resolvePortMappings {data : DeployCommand} (h : ∃ mapping, ValidMapping data mapping)
    {mapping : ServicePortMapping} :
    mapping ∈ resolvePortMappings data ↔ ValidMapping data mapping := by
  have hfilter : ∀ entry : ServicePortMapping,
      (entry ∈ (data.servicePortMappings.getD []).filter fun mapping =>
        isPort mapping.hostPort && isPort mapping.containerPort) ↔ ValidMapping data entry := by
    intro entry
    rw [List.mem_filter, Bool.and_eq_true]
    exact ⟨fun ⟨hmem, hhost, hcontainer⟩ => ⟨hmem, hhost, hcontainer⟩,
      fun ⟨hmem, hhost, hcontainer⟩ => ⟨hmem, hhost, hcontainer⟩⟩
  obtain ⟨some, hsome⟩ := h
  unfold resolvePortMappings
  dsimp only
  rw [if_pos (List.ne_nil_of_mem ((hfilter some).mpr hsome))]
  exact hfilter mapping

variable (settings : Settings)

/-- The record is built from the pairs in their order. -/
theorem portBindings_eq (serviceName serviceVersion : JsString)
    (portMappings : List ServicePortMapping) (env : Option (Props JsString)) :
    (containerSpec settings serviceName serviceVersion portMappings env).portBindings =
      buildProps (portMappings.map binding) := by
  rw [buildProps, List.foldl_map]
  rfl

/-- The record binds each container port once, to a host port it is paired with. -/
theorem mem_portBindings_iff {data : DeployCommand} (h : ∃ mapping, ValidMapping data mapping)
    (hone : OneHostPort data) (entry : JsString × JsString) :
    entry ∈ buildProps ((resolvePortMappings data).map binding) ↔
      ∃ mapping, ValidMapping data mapping ∧ binding mapping = entry := by
  constructor
  · intro hentry
    obtain ⟨mapping, hmapping, rfl⟩ := List.mem_map.mp (mem_of_mem_buildProps hentry)
    exact ⟨mapping, (mem_resolvePortMappings h).mp hmapping, rfl⟩
  · rintro ⟨mapping, hmapping, rfl⟩
    have hlisted := List.mem_map_of_mem (f := binding) ((mem_resolvePortMappings h).mpr hmapping)
    -- The key is there; its value comes from a mapping of the same container port.
    have hkey : (binding mapping).1 ∈
        keys (buildProps ((resolvePortMappings data).map binding)) := by
      rw [← not_not (a := _ ∈ keys _), ← ownValue_eq_none_iff, ownValue_buildProps_reverse,
        ownValue_eq_none_iff, not_not]
      exact List.mem_map_of_mem (List.mem_reverse.mpr hlisted)
    obtain ⟨bound, hbound, hsame⟩ := List.mem_map.mp hkey
    obtain ⟨other, hother, rfl⟩ := List.mem_map.mp (mem_of_mem_buildProps hbound)
    have hvalid := (mem_resolvePortMappings h).mp hother
    have hcontainer := portKey_inj hvalid.container hmapping.container hsame
    have hhost := hone other mapping hvalid hmapping hcontainer
    have hbinding : binding other = binding mapping := by
      rw [binding, binding, hcontainer, hhost]
    exact hbinding ▸ hbound

/-- A record holds one value under a key. -/
theorem hostPort_unique {data : DeployCommand} {spec : ContainerSpec}
    (hspec : (keys spec.portBindings).Nodup) (h : PortsApplied data spec) : OneHostPort data := by
  intro a b ha hb hcontainer
  have hbound : ∀ mapping, ValidMapping data mapping →
      ownValue spec.portBindings (portKey mapping.containerPort) =
        some mapping.hostPort.toText := by
    intro mapping hmapping
    apply ownValue_of_mem hspec
    exact (h.bound _).mpr ⟨mapping, hmapping, rfl⟩
  have htext := hbound a ha
  rw [hcontainer, hbound b hb] at htext
  exact port_toText_inj ha.host hb.host (Option.some.inj htext).symm

theorem portsApplied_iff {data : DeployCommand} (h : ∃ mapping, ValidMapping data mapping)
    (serviceName : JsString) (env : Option (Props JsString)) :
    PortsApplied data (containerSpec settings serviceName data.serviceVersion
      (resolvePortMappings data) env) ↔ OneHostPort data := by
  have hbindings := portBindings_eq settings serviceName data.serviceVersion
    (resolvePortMappings data) env
  constructor
  · apply hostPort_unique
    rw [hbindings]
    exact (ownOrder_buildProps _).nodup
  · intro hone
    refine ⟨?_, fun entry hentry => List.mem_map_of_mem hentry⟩
    rw [hbindings]
    exact mem_portBindings_iff h hone

/-- The container is created with exactly the valid pairs of the command when no
container port is wanted on two host ports, and only then. -/
theorem port_mappings_applied_iff (data : DeployCommand) (serviceName : JsString)
    (env : Option (Props JsString)) (h : ∃ mapping, ValidMapping data mapping) :
    ∃ spec, runContainer settings serviceName data.serviceVersion (resolvePortMappings data) env =
        (do
          await (← call (.createContainer spec))
          await (← call (.startContainer spec.name))) ∧
      (PortsApplied data spec ↔ OneHostPort data) :=
  ⟨_, rfl, portsApplied_iff settings h serviceName env⟩

/-- Port 80 of the container on two ports of the host. -/
def sharedPort : DeployCommand where
  serviceIndex := 1
  sourceUrl := .one (js "https://example.com/app.git")
  serviceName := js "app"
  serviceVersion := js "1"
  servicePort := Number.ofInt 80
  servicePortMappings := some [⟨Number.ofInt 8080, Number.ofInt 80⟩,
    ⟨Number.ofInt 8081, Number.ofInt 80⟩]
  deployPreset := js "DOCKERFILE"

theorem validMapping_sharedPort {mapping : ServicePortMapping}
    (h : mapping = ⟨Number.ofInt 8080, Number.ofInt 80⟩ ∨
      mapping = ⟨Number.ofInt 8081, Number.ofInt 80⟩) : ValidMapping sharedPort mapping := by
  rcases h with rfl | rfl
  · exact ⟨List.mem_cons_self, isPort_ofInt (by omega) (by omega),
      isPort_ofInt (by omega) (by omega)⟩
  · exact ⟨List.mem_cons_of_mem _ List.mem_cons_self, isPort_ofInt (by omega) (by omega),
      isPort_ofInt (by omega) (by omega)⟩

theorem port_mappings_applied_iff_shared :
    ∃ spec, runContainer hostSettings (js "app") (js "1") (resolvePortMappings sharedPort) none =
        (do
          await (← call (.createContainer spec))
          await (← call (.startContainer spec.name))) ∧
      (PortsApplied sharedPort spec ↔ OneHostPort sharedPort) :=
  port_mappings_applied_iff hostSettings sharedPort (js "app") none
    ⟨_, validMapping_sharedPort (.inl rfl)⟩

/-- The later host port replaces the earlier one. -/
theorem port_mappings_applied_fails :
    (∃ mapping, ValidMapping sharedPort mapping) ∧
      ¬ PortsApplied sharedPort (containerSpec hostSettings (js "app") (js "1")
        (resolvePortMappings sharedPort) none) := by
  have hfirst := validMapping_sharedPort (.inl rfl)
  refine ⟨⟨_, hfirst⟩, ?_⟩
  intro happlied
  have hone := (portsApplied_iff hostSettings ⟨_, hfirst⟩ (js "app") none).mp happlied
  have hsame := hone _ _ hfirst (validMapping_sharedPort (.inr rfl)) rfl
  have : (8080 : ℤ) = 8081 := Number.ofInt_inj (by norm_num) (by norm_num) hsame
  omega

end OpticsAgent.Docker
