import AgentRoom.Server.Registry

set_option autoImplicit false

/-! # Spec and registry reconcile

`build_server_spec` names the developer's tools from the settings, `build_server_registry`
registers the tools of the live objects. The two disagree about `memory` when the bindings of
`create_app` hold another provider than the settings ask for, and about names when an MCP tool
is called like a built-in one.
-/

namespace AgentRoom

open Fallible

/-- The tools the developers of a spec name. -/
def GraphSpec.developerTools (spec : GraphSpec) : List String :=
  (spec.nodes.filter (fun entry => entry.2.role == .developer)).flatMap (fun entry => entry.2.tools)

/-- What `graph` is built from fits together: the registry takes every tool, has every tool
the developers name, and no tool is missing from it when the graph is built. -/
structure Server.Reconciles (srv : Server) (memory : MemoryProvider) (graph : Option String) :
    Prop where
  registers : ∃ reg, srv.buildRegistryWith memory = .ok reg
  named : ∀ reg spec, srv.buildRegistryWith memory = .ok reg → srv.buildServerSpec graph = .ok spec →
    ∀ n ∈ spec.developerTools, (Registry.get? reg n).isSome = true
  builds : ∀ reg spec, srv.buildRegistryWith memory = .ok reg →
    srv.buildServerSpec graph = .ok spec → build reg spec ≠ .error .unregisteredTool

/-- The spec is granted `memory`: the settings turn it on, and the mode's developer uses tools. -/
def Server.GrantsMemory (srv : Server) (graph : Option String) : Prop :=
  srv.settings.memoryEnabled = true ∧
    (PermissionMode.ofText srv.settings.toolMode).isSome = true ∧
    ∃ p, srv.preset? graph = some p ∧ p.usesTools = true

namespace Preset

/-- A preset whose developer uses tools names the tools of that developer. -/
theorem developerTools_specWith {p : Preset} (hu : p.usesTools = true) {dev : NodeSpec}
    (hrole : dev.role = .developer) : (p.specWith dev).developerTools = dev.tools := by
  cases p <;> first
    | contradiction
    | simp [GraphSpec.developerTools, specWith, pipeline, hrole]

/-- Any other preset names none. -/
theorem developerTools_plain {p : Preset} (hu : p.usesTools = false) :
    p.spec.developerTools = [] := by
  cases p <;> first | rfl | cases hu

end Preset

namespace Server

variable {srv : Server} {memory : MemoryProvider} {reg : Registry}

/-! ## The names of the registry -/

theorem mem_names_of_buildRegistryWith (h : srv.buildRegistryWith memory = .ok reg) {n : String} :
    n ∈ reg.map Tool.name ↔
      n ∈ ["read_text", "write_text", "glob"] ∨ (srv.settings.shellAllowlist ≠ [] ∧ n = "shell") ∨
        (memory = .fileFts ∧ n = "memory") ∨ n ∈ srv.mcpTools.map Tool.name := by
  rw [eq_of_buildRegistryWith h, builtinTools]
  by_cases hallow : srv.settings.shellAllowlist = [] <;> by_cases hmem : memory = .fileFts <;>
    simp [hallow, hmem, or_assoc]

/-- The built-in `glob` comes before every MCP tool. -/
theorem get?_glob_buildRegistryWith (h : srv.buildRegistryWith memory = .ok reg) :
    Registry.get? reg "glob" = some { name := "glob" } := by
  rw [eq_of_buildRegistryWith h]
  simp [Registry.get?, builtinTools]

/-- A granted tool is registered, `memory` only by the provider or an MCP tool. -/
theorem granted_registered_iff (h : srv.buildRegistryWith memory = .ok reg) :
    (∀ n ∈ srv.grantedTools Preset.toolNames, n ∈ reg.map Tool.name) ↔
      (srv.settings.memoryEnabled = true →
        memory = .fileFts ∨ "memory" ∈ srv.mcpTools.map Tool.name) := by
  constructor
  · intro hall hon
    have hgranted : "memory" ∈ srv.grantedTools Preset.toolNames :=
      mem_grantedTools.mpr (.inr (.inl ⟨hon, rfl⟩))
    rcases (mem_names_of_buildRegistryWith h).mp (hall _ hgranted) with hfs | ⟨-, hsh⟩ | hmem | hmcp
    · simp at hfs
    · simp at hsh
    · exact .inl hmem.1
    · exact .inr hmcp
  · intro hmemory n hn
    rw [mem_names_of_buildRegistryWith h]
    rcases mem_grantedTools.mp hn with ⟨hlisted, hav⟩ | ⟨hon, rfl⟩ | hmcp
    · simp only [Preset.toolNames, List.mem_cons, List.not_mem_nil, or_false] at hlisted
      rcases hlisted with rfl | rfl | rfl | rfl
      · exact .inl (by simp)
      · exact .inl (by simp)
      · exact .inl (by simp)
      · -- `shell` is available with an allowlist or as an MCP tool
        simp only [availableToolNames, List.mem_append] at hav
        rcases hav with ((hfs | hsh) | hmem) | hmcp
        · simp at hfs
        · refine .inr (.inl ⟨?_, rfl⟩)
          intro hnil
          simp [hnil] at hsh
        · split_ifs at hmem <;> simp at hmem
        · exact .inr (.inr (.inr hmcp))
    · rcases hmemory hon with hprovider | hmcp
      · exact .inr (.inr (.inl ⟨hprovider, rfl⟩))
      · exact .inr (.inr (.inr hmcp))
    · exact .inr (.inr (.inr hmcp))

/-! ## The two sides -/

variable {graph : Option String}

/-- The spec of a developer that uses tools, in a valid mode. -/
theorem exists_spec_of_grantsMemory (h : srv.GrantsMemory graph) :
    ∃ spec, srv.buildServerSpec graph = .ok spec ∧
      spec.developerTools = srv.grantedTools Preset.toolNames := by
  obtain ⟨-, hmode, p, hp, hu⟩ := h
  obtain ⟨mode, hmode⟩ := Option.isSome_iff_exists.mp hmode
  have hdev : srv.reconcileNode Preset.reactDeveloper = _ := reconcileNode_reactDeveloper_eq
  rw [hmode] at hdev
  have hspec := buildServerSpec_react hp hu
  rw [hdev] at hspec
  exact ⟨_, hspec, Preset.developerTools_specWith hu rfl⟩

/-- The tools a spec names are the granted ones, or none. -/
theorem developerTools_of_buildServerSpec {spec : GraphSpec}
    (h : srv.buildServerSpec graph = .ok spec) :
    spec.developerTools = [] ∨
      ((∃ p, srv.preset? graph = some p ∧ p.usesTools = true) ∧
        (PermissionMode.ofText srv.settings.toolMode).isSome = true ∧
        spec.developerTools = srv.grantedTools Preset.toolNames) := by
  obtain ⟨p, hp, ⟨hu, rfl⟩ | ⟨hu, dev, hdev, rfl⟩⟩ := buildServerSpec_ok h
  · exact .inl (Preset.developerTools_plain hu)
  · obtain ⟨mode, hmode, rfl⟩ := reconcileNode_reactDeveloper hdev
    refine .inr ⟨⟨p, hp, hu⟩, by simp [hmode], ?_⟩
    exact Preset.developerTools_specWith hu rfl

/-- A registry with every named tool builds the graph. -/
theorem exists_build_of_named (hreg : srv.buildRegistryWith memory = .ok reg) {spec : GraphSpec}
    (hspec : srv.buildServerSpec graph = .ok spec)
    (hnamed : ∀ n ∈ spec.developerTools, n ∈ reg.map Tool.name) :
    ∃ g, build reg spec = .ok g := by
  obtain ⟨p, hp, ⟨hu, rfl⟩ | ⟨hu, dev, hdev, rfl⟩⟩ := buildServerSpec_ok hspec
  · exact ⟨p.compiled [] false, Preset.build_plain hu [] false⟩
  · obtain ⟨mode, -, rfl⟩ := reconcileNode_reactDeveloper hdev
    rw [Preset.developerTools_specWith hu rfl] at hnamed
    obtain ⟨tools, htools⟩ := resolve_granted hnamed (get?_glob_buildRegistryWith hreg) hdev
    have hread : (Registry.get? reg "read_text").isSome = true := by
      rw [Registry.isSome_get?, mem_names_of_buildRegistryWith hreg]
      exact .inl (by simp)
    have hne : srv.grantedTools Preset.toolNames ≠ [] := List.ne_nil_of_mem glob_mem_grantedTools
    exact ⟨_, Preset.build_specWith (by simp [NodeSpec.isReact, Preset.reactDeveloper, hne])
      rfl rfl rfl htools hread p⟩

/-- **When spec and registry reconcile**: exactly when no MCP tool is called like a built-in
one, and a spec that is granted `memory` finds a provider that registers it. -/
theorem reconciles_iff (settings : Settings) (mcpTools : List Tool)
    (hnodup : (mcpTools.map Tool.name).Nodup) (bindings : Option MemoryProvider)
    (tenantId : String) (graph : Option String) :
    Reconciles { settings, mcpTools } (tenantMemory settings bindings tenantId) graph ↔
      (∀ t ∈ mcpTools, t.name ∉ (builtinTools { settings, mcpTools }
          (tenantMemory settings bindings tenantId)).map Tool.name) ∧
        (GrantsMemory { settings, mcpTools } graph →
          tenantMemory settings bindings tenantId = .fileFts ∨ "memory" ∈ mcpTools.map Tool.name) := by
  generalize tenantMemory settings bindings tenantId = memory
  let srv : Server := { settings, mcpTools }
  have hregisters := @exists_registry_iff srv memory hnodup
  constructor
  · rintro ⟨hreg, hnamed, -⟩
    refine ⟨hregisters.mp hreg, ?_⟩
    intro hgrants
    obtain ⟨reg, hreg⟩ := hreg
    obtain ⟨spec, hspec, htools⟩ := exists_spec_of_grantsMemory hgrants
    have hall := hnamed reg spec hreg hspec
    rw [htools] at hall
    have hgranted : ∀ n ∈ srv.grantedTools Preset.toolNames, n ∈ reg.map Tool.name :=
      fun n hn => Registry.isSome_get?.mp (hall n hn)
    exact (granted_registered_iff hreg).mp hgranted hgrants.1
  · rintro ⟨hdisjoint, hmemory⟩
    have hall : ∀ reg spec, srv.buildRegistryWith memory = .ok reg →
        srv.buildServerSpec graph = .ok spec →
        ∀ n ∈ spec.developerTools, n ∈ reg.map Tool.name := by
      intro reg spec hreg hspec
      rcases developerTools_of_buildServerSpec hspec with hnil | ⟨hp, hmode, htools⟩
      · simp [hnil]
      · rw [htools]
        exact (granted_registered_iff hreg).mpr (fun hon => hmemory ⟨hon, hmode, hp⟩)
    constructor
    · exact hregisters.mpr hdisjoint
    · intro reg spec hreg hspec n hn
      exact Registry.isSome_get?.mpr (hall reg spec hreg hspec n hn)
    · intro reg spec hreg hspec hraises
      obtain ⟨g, hg⟩ := exists_build_of_named hreg hspec (hall reg spec hreg hspec)
      rw [hg] at hraises
      cases hraises

/-- A server with one MCP tool, and the memory its settings ask for. -/
theorem reconciles_fetch :
    Reconciles { settings := {}, mcpTools := [{ name := "fetch" }] }
      (tenantMemory {} none defaultTenantId) none := by
  refine (reconciles_iff {} [{ name := "fetch" }] (by decide) none defaultTenantId none).mpr ?_
  exact ⟨by decide, fun _ => .inl rfl⟩

/-- Bindings with a provider of another class leave the spec's `memory` unregistered, and an
MCP tool named `glob` is registered twice. -/
theorem memory_unregistered_glob_twice :
    (∃ reg spec,
      buildRegistryWith {} (tenantMemory {} (some .noOp) defaultTenantId) = .ok reg ∧
      buildServerSpec {} none = .ok spec ∧ "memory" ∈ spec.developerTools ∧
      Registry.get? reg "memory" = none ∧ build reg spec = .error .unregisteredTool) ∧
    buildRegistryWith { mcpTools := [{ name := "glob" }] } (tenantMemory {} none defaultTenantId)
      = .error .toolAlreadyRegistered :=
  ⟨⟨_, _, rfl, rfl, by decide, rfl, rfl⟩, rfl⟩

end Server

end AgentRoom
