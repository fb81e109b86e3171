import AgentRoom.Compiled

set_option autoImplicit false

/-! # The graphs a server compiles

A server derives its graphs from the presets: the developer's tools are reconciled with what
the registry will contain, `memory` and the MCP tools are granted, and the configured
`tool_mode` is applied. All graphs of one server share the resolved tools and the kind of
tool node, so that a graph is told by its preset (`Server.taskServiceFor_ok`).
-/

namespace AgentRoom

open Fallible

/-- The fields of `Settings` the graphs depend on. -/
structure Settings where
  graphPreset : String := "full_react"
  shellAllowlist : List String := ["pytest", "python", "python3", "ruff"]
  toolMode : String := "unrestricted"
  memoryEnabled : Bool := true

/-- A running server: its settings and the MCP tools it has loaded. -/
structure Server where
  settings : Settings := {}
  mcpTools : List Tool := []

/-- Why a request does not get a graph. -/
inductive ServerError
  | unknownPreset
  | invalidToolMode
  | toolAlreadyRegistered
  | build (error : BuildError)
  | guardrail (finding : GuardrailFinding)
  | graphNotSelectable
  | node (error : NodeError)
  deriving DecidableEq, Repr

/-- The literals of `PermissionMode`. -/
def PermissionMode.ofText : String → Option PermissionMode
  | "read_only" => some .readOnly
  | "approval" => some .approval
  | "unrestricted" => some .unrestricted
  | _ => none

/-- `Registry.register`. -/
def Registry.register (reg : Registry) (t : Tool) : Except ServerError Registry :=
  if (reg.get? t.name).isSome then .error .toolAlreadyRegistered else .ok (reg ++ [t])

namespace Server

variable (srv : Server)

/-- `_available_tool_names`. -/
def availableToolNames : List String :=
  ["glob", "read_text", "write_text"] ++
    (if srv.settings.shellAllowlist = [] then [] else ["shell"]) ++
    (if srv.settings.memoryEnabled then ["memory"] else []) ++
    srv.mcpTools.map Tool.name

/-- The tools `build_server_registry` registers, in order. -/
def registeredTools : List Tool :=
  [{ name := "read_text" }, { name := "write_text" }, { name := "glob" }] ++
    (if srv.settings.shellAllowlist = [] then [] else [{ name := "shell" }]) ++
    (if srv.settings.memoryEnabled then [{ name := "memory" }] else []) ++
    srv.mcpTools

/-- `build_server_registry`. -/
def buildServerRegistry : Except ServerError Registry :=
  srv.registeredTools.foldlM Registry.register []

/-- The tools a developer that lists `tools` is granted. -/
def grantedTools (tools : List String) : List String :=
  -- what the preset lists and the registry will have, then memory, then the MCP tools
  let kept := tools.filter (fun t => t ∈ srv.availableToolNames)
  let kept := if srv.settings.memoryEnabled ∧ "memory" ∉ kept then kept ++ ["memory"] else kept
  (srv.mcpTools.map Tool.name).foldl
    (fun granted name => if name ∈ granted then granted else granted ++ [name]) kept

/-- The loop body of `build_server_spec`. -/
def reconcileNode (node : NodeSpec) : Except ServerError NodeSpec :=
  if node.role ≠ .developer ∨ node.tools = [] then .ok node
  else
    let granted := srv.grantedTools node.tools
    -- a developer left without tools is built as a plain one
    if granted = [] then .ok { node with tools := granted, toolMode := none }
    else
      match PermissionMode.ofText srv.settings.toolMode with
      | none => .error .invalidToolMode
      | some mode => .ok { node with tools := granted, toolMode := some mode }

/-- The loop of `build_server_spec` on one entry of `nodes`. -/
def reconcileEntry (entry : NodeName × NodeSpec) : Except ServerError (NodeName × NodeSpec) :=
  (srv.reconcileNode entry.2).map (fun node => (entry.1, node))

/-- The preset a request's `graph` asks for: `graph_preset or settings.graph_preset`. -/
def presetName (graph : Option String) : String :=
  if Py.truthy graph then Py.orEmpty graph else srv.settings.graphPreset

/-- `build_server_spec`. -/
def buildServerSpec (graph : Option String) : Except ServerError GraphSpec :=
  match loadPreset (srv.presetName graph) with
  | none => .error .unknownPreset
  | some p => do
      let nodes ← p.spec.nodes.mapM srv.reconcileEntry
      .ok { p.spec with nodes := nodes }

/-- The graph of `task_service_for`. The spec cache of `_spec_for` holds what
`buildServerSpec` returns, so it is left out. -/
def taskServiceFor (graph : Option String) : Except ServerError Graph := do
  let reg ← srv.buildServerRegistry
  let spec ← srv.buildServerSpec graph
  match build reg spec with
  | .error e => .error (.build e)
  | .ok g => .ok g

end Server

/-! ## The registry has every tool the developer is granted -/

theorem Registry.isSome_get? {reg : Registry} {name : String} :
    (reg.get? name).isSome = true ↔ name ∈ reg.map Tool.name := by
  simp [Registry.get?, List.find?_isSome]

/-- Registering tools one after the other, if it goes through, appends them all. -/
theorem Registry.eq_of_foldlM_register {tools : List Tool} {reg reg' : Registry}
    (h : tools.foldlM Registry.register reg = .ok reg') : reg' = reg ++ tools := by
  induction tools generalizing reg with
  | nil =>
      cases h
      exact (List.append_nil _).symm
  | cons t rest ih =>
      rw [List.foldlM_cons] at h
      obtain ⟨reg₁, hreg₁, h⟩ := bind_eq_ok h
      unfold Registry.register at hreg₁
      split at hreg₁
      · cases hreg₁
      · cases hreg₁
        rw [ih h, List.append_assoc, List.singleton_append]

theorem resolveToolNames_ok {names : List String} {reg : Registry}
    (h : ∀ n ∈ names, n ∈ reg.map Tool.name) :
    ∃ tools, resolveToolNames names reg = some tools := by
  unfold resolveToolNames
  induction names with
  | nil => exact ⟨[], rfl⟩
  | cons n rest ih =>
      obtain ⟨t, ht⟩ := Option.isSome_iff_exists.mp (Registry.isSome_get?.mpr (h n (by simp)))
      obtain ⟨ts, hts⟩ := ih (fun m hm => h m (List.mem_cons_of_mem _ hm))
      exact ⟨t :: ts, by simp [ht, hts]⟩

/-- A resolved name is among the resolved tools. -/
theorem mem_of_resolveToolNames {names : List String} {reg : Registry} {tools : List Tool}
    {n : String} {t : Tool} (h : resolveToolNames names reg = some tools) (hn : n ∈ names)
    (ht : reg.get? n = some t) : t ∈ tools := by
  unfold resolveToolNames at h
  induction names generalizing tools with
  | nil => cases hn
  | cons m rest ih =>
      rw [List.mapM_cons] at h
      obtain ⟨u, hu, h⟩ := Option.bind_eq_some_iff.mp h
      obtain ⟨us, hus, h⟩ := Option.bind_eq_some_iff.mp h
      cases h
      rcases List.mem_cons.mp hn with rfl | hn
      · rw [ht] at hu
        cases hu
        exact List.mem_cons_self
      · exact List.mem_cons_of_mem _ (ih hus hn)

/-- Granting names one after the other adds those that are missing. -/
theorem mem_foldl_grant {n : String} (names kept : List String) :
    n ∈ names.foldl (fun granted name => if name ∈ granted then granted else granted ++ [name]) kept
      ↔ n ∈ kept ∨ n ∈ names := by
  induction names generalizing kept with
  | nil => simp
  | cons m rest ih =>
      rw [List.foldl_cons, ih]
      by_cases hm : m ∈ kept
      · rw [if_pos hm, List.mem_cons]
        constructor
        · exact fun h => h.imp_right .inr
        · rintro (h | rfl | h)
          · exact .inl h
          · exact .inl hm
          · exact .inr h
      · simp [if_neg hm, or_assoc]

namespace Server

variable {srv : Server}

/-- What the server grants. -/
theorem mem_grantedTools {tools : List String} {n : String} :
    n ∈ srv.grantedTools tools ↔
      (n ∈ tools ∧ n ∈ srv.availableToolNames) ∨
        (srv.settings.memoryEnabled = true ∧ n = "memory") ∨ n ∈ srv.mcpTools.map Tool.name := by
  unfold grantedTools
  rw [mem_foldl_grant]
  split_ifs with hm
  · simp [hm.1, or_assoc]
  · rw [List.mem_filter, decide_eq_true_iff]
    constructor
    · rintro (h | h)
      · exact .inl h
      · exact .inr (.inr h)
    · rintro (h | ⟨hon, rfl⟩ | h)
      · exact .inl h
      · exact .inl (by simpa [hon] using hm)
      · exact .inr h

/-- **Spec and registry agree**: every tool the server grants is registered. -/
theorem registered_of_mem_grantedTools {tools : List String} {n : String}
    (h : n ∈ srv.grantedTools tools) : n ∈ srv.registeredTools.map Tool.name := by
  rcases mem_grantedTools.mp h with ⟨-, hav⟩ | ⟨hon, rfl⟩ | hmcp
  · unfold availableToolNames at hav
    unfold registeredTools
    simp only [List.mem_append, List.map_append, List.mem_cons, List.not_mem_nil, or_false] at hav ⊢
    rcases hav with ((hfs | hsh) | hmem) | hmcp
    · rcases hfs with rfl | rfl | rfl <;> simp
    · split_ifs at hsh with hal
      · cases hsh
      · simp only [List.mem_singleton] at hsh
        simp [hal, hsh]
    · split_ifs at hmem with hon
      · simp only [List.mem_singleton] at hmem
        simp [hon, hmem]
      · cases hmem
    · exact .inr hmcp
  · simp [registeredTools, hon]
  · simp only [registeredTools, List.map_append, List.mem_append]
    exact .inr hmcp

/-- The preset's own file tools are always granted. -/
theorem glob_mem_grantedTools : "glob" ∈ srv.grantedTools Preset.toolNames :=
  mem_grantedTools.mpr (.inl ⟨by simp [Preset.toolNames], by simp [availableToolNames]⟩)

/-- What a registry that builds holds. -/
theorem registry_eq {reg : Registry} (h : srv.buildServerRegistry = .ok reg) :
    reg = srv.registeredTools := by
  simpa using Registry.eq_of_foldlM_register h

/-- The first tool registered as `glob` is the built-in one. -/
theorem get?_glob : Registry.get? srv.registeredTools "glob" = some { name := "glob" } := by
  simp [Registry.get?, registeredTools]

/-! ## Every graph a server compiles is a compiled preset -/

/-- Some tool is granted, so that only the configured mode decides. -/
theorem reconcileNode_reactDeveloper_eq :
    srv.reconcileNode Preset.reactDeveloper =
      match PermissionMode.ofText srv.settings.toolMode with
      | none => .error .invalidToolMode
      | some mode => .ok { Preset.reactDeveloper with
          tools := srv.grantedTools Preset.toolNames, toolMode := some mode } := by
  have hne : srv.grantedTools Preset.toolNames ≠ [] := List.ne_nil_of_mem glob_mem_grantedTools
  unfold reconcileNode
  rw [if_neg (by simp [Preset.reactDeveloper, Preset.toolNames])]
  simp only [Preset.reactDeveloper, hne, if_false]

/-- The server's tool-using developer. -/
theorem reconcileNode_reactDeveloper {dev : NodeSpec}
    (h : srv.reconcileNode Preset.reactDeveloper = .ok dev) :
    ∃ mode, PermissionMode.ofText srv.settings.toolMode = some mode ∧
      dev = { Preset.reactDeveloper with
        tools := srv.grantedTools Preset.toolNames, toolMode := some mode } := by
  rw [reconcileNode_reactDeveloper_eq] at h
  cases hmode : PermissionMode.ofText srv.settings.toolMode with
  | none =>
      rw [hmode] at h
      cases h
  | some mode =>
      rw [hmode] at h
      exact ⟨mode, rfl, (Except.ok.inj h).symm⟩

/-- The granted tools resolve in a registry that has them, and the permission filter leaves
some of them in every mode. -/
theorem resolve_granted {reg : Registry} {dev : NodeSpec}
    (hgranted : ∀ n ∈ srv.grantedTools Preset.toolNames, n ∈ reg.map Tool.name)
    (hglob : Registry.get? reg "glob" = some { name := "glob" })
    (hdev : srv.reconcileNode Preset.reactDeveloper = .ok dev) :
    ∃ tools, resolveToolsWithPolicy dev reg = .ok tools := by
  obtain ⟨mode, -, rfl⟩ := reconcileNode_reactDeveloper hdev
  obtain ⟨raw, hraw⟩ := resolveToolNames_ok hgranted
  have hglob : ({ name := "glob" } : Tool) ∈ raw :=
    mem_of_resolveToolNames hraw glob_mem_grantedTools hglob
  have hkept : ({ name := "glob" } : Tool) ∈ applyPolicy raw mode := by
    cases mode with
    | readOnly => exact List.mem_filter.mpr ⟨hglob, rfl⟩
    | approval => exact hglob
    | unrestricted => exact hglob
  refine ⟨applyPolicy raw mode, ?_⟩
  simp [resolveToolsWithPolicy, hraw, List.ne_nil_of_mem hkept]

/-- Its tools resolve in the server's registry. -/
theorem resolve_reactDeveloper {reg : Registry} {dev : NodeSpec}
    (hreg : srv.buildServerRegistry = .ok reg)
    (hdev : srv.reconcileNode Preset.reactDeveloper = .ok dev) :
    ∃ tools, resolveToolsWithPolicy dev reg = .ok tools := by
  obtain rfl := registry_eq hreg
  exact resolve_granted (fun n hn => registered_of_mem_grantedTools hn) get?_glob hdev

/-- A preset without a tool-using developer passes through untouched. -/
theorem buildServerSpec_plain {graph : Option String} {p : Preset}
    (hp : loadPreset (srv.presetName graph) = some p) (hu : p.usesTools = false) :
    srv.buildServerSpec graph = .ok p.spec := by
  have hnodes : p.spec.nodes.mapM srv.reconcileEntry = .ok p.spec.nodes := by
    cases p <;> first | rfl | cases hu
  rw [buildServerSpec, hp]
  exact ok_bind hnodes

/-- A preset with one has its developer reconciled. -/
theorem buildServerSpec_react {graph : Option String} {p : Preset}
    (hp : loadPreset (srv.presetName graph) = some p) (hu : p.usesTools = true) :
    srv.buildServerSpec graph = (srv.reconcileNode Preset.reactDeveloper).map p.specWith := by
  rw [buildServerSpec, hp]
  cases hdev : srv.reconcileNode Preset.reactDeveloper with
  | error e =>
      have hentry : srv.reconcileEntry (.developer, Preset.reactDeveloper) = .error e := by
        simp only [reconcileEntry, hdev]
        rfl
      have hnodes : p.spec.nodes.mapM srv.reconcileEntry = .error e := by
        cases p <;> first
          | contradiction
          | exact mapM_cons_error rfl (mapM_cons_of_error hentry)
      exact error_bind hnodes
  | ok dev =>
      have hentry : srv.reconcileEntry (.developer, Preset.reactDeveloper)
          = .ok (.developer, dev) := by
        simp only [reconcileEntry, hdev]
        rfl
      have hnodes : p.spec.nodes.mapM srv.reconcileEntry = .ok (p.specWith dev).nodes := by
        cases p <;> first
          | contradiction
          | exact mapM_cons_ok rfl (mapM_cons_ok hentry rfl)
      have hspec : ({ p.spec with nodes := (p.specWith dev).nodes } : GraphSpec)
          = p.specWith dev := by
        cases p <;> rfl
      rw [show Except.map p.specWith (.ok dev) = .ok (p.specWith dev) from rfl, ← hspec]
      exact ok_bind hnodes

/-- What `build_server_spec` makes of a preset: its developer reconciled, if it uses tools. -/
theorem buildServerSpec_ok {graph : Option String} {spec : GraphSpec}
    (h : srv.buildServerSpec graph = .ok spec) :
    ∃ p, loadPreset (srv.presetName graph) = some p ∧
      ((p.usesTools = false ∧ spec = p.spec) ∨
        (p.usesTools = true ∧ ∃ dev, srv.reconcileNode Preset.reactDeveloper = .ok dev ∧
          spec = p.specWith dev)) := by
  cases hp : loadPreset (srv.presetName graph) with
  | none =>
      rw [buildServerSpec, hp] at h
      cases h
  | some p =>
      refine ⟨p, rfl, ?_⟩
      cases hu : p.usesTools with
      | false =>
          rw [buildServerSpec_plain hp hu] at h
          exact .inl ⟨rfl, (Except.ok.inj h).symm⟩
      | true =>
          rw [buildServerSpec_react hp hu] at h
          cases hdev : srv.reconcileNode Preset.reactDeveloper with
          | error e =>
              rw [hdev] at h
              cases h
          | ok dev =>
              rw [hdev] at h
              exact .inr ⟨rfl, dev, rfl, (Except.ok.inj h).symm⟩

/-- The preset a mode is served with. -/
def preset? (srv : Server) (graph : Option String) : Option Preset :=
  loadPreset (srv.presetName graph)

/-- The tool node of the server's developers asks for approval. -/
def gated (srv : Server) : Bool :=
  decide (PermissionMode.ofText srv.settings.toolMode = some .approval)

/-- The tools the server's developers use. -/
def devTools (srv : Server) : List Tool :=
  match srv.buildServerRegistry, srv.reconcileNode Preset.reactDeveloper with
  | .ok reg, .ok dev => (resolveToolsWithPolicy dev reg).toOption.getD []
  | _, _ => []

/-- **A server's graphs.** Whatever mode is asked for, the graph is the compiled form of the
mode's preset, with the server's tools. -/
theorem taskServiceFor_ok {graph : Option String} {g : Graph}
    (h : srv.taskServiceFor graph = .ok g) :
    ∃ p, srv.preset? graph = some p ∧ g = p.compiled srv.devTools srv.gated := by
  obtain ⟨reg, hreg, h⟩ := bind_eq_ok h
  obtain ⟨spec, hspec, h⟩ := bind_eq_ok h
  obtain ⟨p, hp, ⟨hu, rfl⟩ | ⟨hu, dev, hdev, rfl⟩⟩ := buildServerSpec_ok hspec
  · refine ⟨p, hp, ?_⟩
    rw [Preset.spec, Preset.build_plain hu srv.devTools srv.gated] at h
    exact (Except.ok.inj h).symm
  · refine ⟨p, hp, ?_⟩
    obtain ⟨tools, htools⟩ := resolve_reactDeveloper hreg hdev
    have hread : (Registry.get? reg "read_text").isSome = true := by
      rw [registry_eq hreg, Registry.isSome_get?]
      simp [registeredTools]
    obtain ⟨mode, hmode, rfl⟩ := reconcileNode_reactDeveloper hdev
    have hne : srv.grantedTools Preset.toolNames ≠ [] :=
      List.ne_nil_of_mem glob_mem_grantedTools
    rw [Preset.build_specWith (by simp [NodeSpec.isReact, Preset.reactDeveloper, hne])
      rfl rfl rfl htools hread p] at h
    have hdevTools : srv.devTools = tools := by
      simp [devTools, hreg, hdev, htools, Except.toOption]
    rw [← Except.ok.inj h, hdevTools, gated, hmode]
    simp

end Server

end AgentRoom
