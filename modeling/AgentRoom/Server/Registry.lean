import AgentRoom.Server.Runtime
import AgentRoom.Server.Tenancy

set_option autoImplicit false

/-! # What a registry is built from

The spec predicts from the settings which tools there will be; the registry is built from the
live memory provider and the loaded MCP tools. The provider of the default tenant is the one
`create_app` was given, if it was given one.
-/

namespace AgentRoom

/-- The memory providers, as far as `isinstance(memory, FileFtsMemoryProvider)` tells. -/
inductive MemoryProvider
  | fileFts
  | noOp
  | other (className : String)
  deriving DecidableEq, Repr

/-- `build_server_memory`. -/
def buildServerMemory (settings : Settings) : MemoryProvider :=
  if settings.memoryEnabled then .fileFts else .noOp

/-- The provider of a tenant's entry: `clone_bindings_for_tenant`, over the memory of the
bindings `create_app` got. -/
def tenantMemory (settings : Settings) (bindings : Option MemoryProvider) (tenantId : String) :
    MemoryProvider :=
  if tenantId = defaultTenantId then bindings.getD (buildServerMemory settings)
  else buildServerMemory settings

namespace Server

variable (srv : Server) (memory : MemoryProvider)

/-- The tools `register_builtin_tools` registers, in order. -/
def builtinTools : List Tool :=
  [{ name := "read_text" }, { name := "write_text" }, { name := "glob" }] ++
    (if srv.settings.shellAllowlist = [] then [] else [{ name := "shell" }]) ++
    (if memory = .fileFts then [{ name := "memory" }] else [])

/-- `build_server_registry`, with the memory provider of a tenant's entry. -/
def buildRegistryWith : Except ServerError Registry :=
  (srv.builtinTools memory ++ srv.mcpTools).foldlM Registry.register []

/-- With the server's own memory it is the registry of `taskServiceFor`. -/
theorem buildRegistryWith_own :
    srv.buildRegistryWith (buildServerMemory srv.settings) = srv.buildServerRegistry := by
  have htools : srv.builtinTools (buildServerMemory srv.settings) ++ srv.mcpTools
      = srv.registeredTools := by
    cases hm : srv.settings.memoryEnabled <;>
      simp [builtinTools, registeredTools, buildServerMemory, hm]
  rw [buildRegistryWith, htools, buildServerRegistry]

end Server

/-! ## Registering -/

/-- Tools register one after the other when no name comes twice. -/
theorem Registry.foldlM_register_iff {tools : List Tool} {reg : Registry} :
    (∃ reg', tools.foldlM Registry.register reg = .ok reg') ↔
      (tools.map Tool.name).Nodup ∧ ∀ t ∈ tools, t.name ∉ reg.map Tool.name := by
  induction tools generalizing reg with
  | nil => simp [pure, Except.pure]
  | cons t rest ih =>
      rw [List.foldlM_cons, List.map_cons, List.nodup_cons]
      by_cases ht : t.name ∈ reg.map Tool.name
      · have hraises : reg.register t = .error .toolAlreadyRegistered :=
          if_pos (Registry.isSome_get?.mpr ht)
        constructor
        · rintro ⟨reg', h⟩
          rw [Fallible.error_bind hraises] at h
          cases h
        · rintro ⟨-, hnew⟩
          exact absurd ht (hnew t List.mem_cons_self)
      · have hok : reg.register t = .ok (reg ++ [t]) := by
          refine if_neg (fun h => ht ?_)
          exact Registry.isSome_get?.mp h
        rw [Fallible.ok_bind hok, ih]
        constructor
        · rintro ⟨hnodup, hnew⟩
          refine ⟨⟨?_, hnodup⟩, ?_⟩
          · intro hmem
            obtain ⟨u, hu, hname⟩ := List.mem_map.mp hmem
            exact hnew u hu (by simp [hname])
          · intro u hu
            rcases List.mem_cons.mp hu with rfl | hu
            · exact ht
            · intro hmem
              exact hnew u hu (by simp [List.mem_map.mp hmem])
        · rintro ⟨⟨hfirst, hnodup⟩, hnew⟩
          refine ⟨hnodup, ?_⟩
          intro u hu hmem
          rw [List.map_append, List.mem_append] at hmem
          rcases hmem with hmem | hmem
          · exact hnew u (List.mem_cons_of_mem _ hu) hmem
          · rw [List.map_singleton, List.mem_singleton] at hmem
            exact hfirst (hmem ▸ List.mem_map_of_mem hu)

namespace Server

variable {srv : Server} {memory : MemoryProvider} {reg : Registry}

/-- What a registry that builds holds. -/
theorem eq_of_buildRegistryWith (h : srv.buildRegistryWith memory = .ok reg) :
    reg = srv.builtinTools memory ++ srv.mcpTools := by
  simpa using Registry.eq_of_foldlM_register h

/-- The built-in tools have names of their own. -/
theorem nodup_builtinTools : ((srv.builtinTools memory).map Tool.name).Nodup := by
  unfold builtinTools
  split_ifs <;> decide

/-- The registry builds when no MCP tool has the name of a built-in one. -/
theorem exists_registry_iff (hnodup : (srv.mcpTools.map Tool.name).Nodup) :
    (∃ reg, srv.buildRegistryWith memory = .ok reg) ↔
      ∀ t ∈ srv.mcpTools, t.name ∉ (srv.builtinTools memory).map Tool.name := by
  rw [buildRegistryWith, Registry.foldlM_register_iff, List.map_append, List.nodup_append]
  constructor
  · rintro ⟨⟨-, -, hdisjoint⟩, -⟩ t ht hmem
    exact hdisjoint t.name hmem t.name (List.mem_map_of_mem ht) rfl
  · intro h
    refine ⟨⟨nodup_builtinTools, hnodup, ?_⟩, by simp⟩
    rintro n hn m hm rfl
    obtain ⟨t, ht, rfl⟩ := List.mem_map.mp hm
    exact h t ht hn

end Server

end AgentRoom
