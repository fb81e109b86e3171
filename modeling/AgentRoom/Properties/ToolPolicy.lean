import AgentRoom.Properties.Logs
import AgentRoom.Properties.ToolDecisions

set_option autoImplicit false

/-! # The permission policy over whole histories

A tool-using developer and its tool node are built from one resolution of the node's tools
(`exists_developer_of_tools`). Whatever graph is built and whatever its history, a tool body is
started only for a tool that the node's spec lists, the registry holds and the mode of the node
allows; in approval mode only after an approving decision (`tool_runs_permitted`).
-/

namespace AgentRoom

open Transition

/-- What the mode of a node asks for before a tool's body starts, after the history `h`. -/
def PermissionMode.Permits (mode : PermissionMode) (t : Tool) (h : List Action) : Prop :=
  match mode with
  | .readOnly => t.isReadOnly = true
  | .approval => ∃ d, .resumed d .toolCall ∈ h ∧ classifyDecision d = .approve
  | .unrestricted => True

/-! ## What is built -/

section Build

variable {reg : Registry} {spec : GraphSpec} {g : Graph}

/-- A resolved tool is registered under one of the names. -/
theorem exists_name_of_resolved {names : List String} {tools : List Tool} {t : Tool}
    (h : resolveToolNames names reg = some tools) (ht : t ∈ tools) :
    ∃ name ∈ names, Registry.get? reg name = some t := by
  unfold resolveToolNames at h
  induction names generalizing tools with
  | nil =>
      cases h
      cases ht
  | cons name rest ih =>
      rw [List.mapM_cons] at h
      obtain ⟨u, hu, h⟩ := Option.bind_eq_some_iff.mp h
      obtain ⟨us, hus, h⟩ := Option.bind_eq_some_iff.mp h
      cases h
      rcases List.mem_cons.mp ht with rfl | ht
      · exact ⟨name, List.mem_cons_self, hu⟩
      · obtain ⟨name', hname', hget⟩ := ih hus ht
        exact ⟨name', List.mem_cons_of_mem _ hname', hget⟩

/-- The tools a policy lets through are registered under the names the spec lists. -/
theorem resolved_tool {node : NodeSpec} {tools : List Tool} {t : Tool}
    (h : resolveToolsWithPolicy node reg = .ok tools) (ht : t ∈ tools) :
    t.name ∈ node.tools ∧ Registry.get? reg t.name = some t ∧
      (node.toolMode.getD defaultMode = .readOnly → t.isReadOnly = true) := by
  unfold resolveToolsWithPolicy at h
  split at h
  · cases h
  · rename_i raw hraw
    dsimp only at h
    split at h
    · cases h
    · obtain rfl := Except.ok.inj h
      have hmem : t ∈ raw := by
        revert ht
        cases node.toolMode.getD defaultMode with
        | readOnly => exact fun ht => (List.mem_filter.mp ht).1
        | approval | unrestricted => exact id
      obtain ⟨name, hname, hget⟩ := exists_name_of_resolved hraw hmem
      have hsame : t.name = name := by simpa using List.find?_some hget
      refine ⟨hsame ▸ hname, hsame ▸ hget, fun hmode => ?_⟩
      rw [hmode] at ht
      exact (List.mem_filter.mp ht).2

/-- A node implementation that answers tool calls. -/
def NodeImpl.toolsRun : NodeImpl → Option (List Tool)
  | .toolNode tools | .approvalToolNode tools => some tools
  | _ => none

/-- No entry of a spec is itself a tool node. -/
theorem toolsRun_instantiateNode {node : NodeSpec} {impl : NodeImpl}
    (h : instantiateNode node reg = .ok impl) : impl.toolsRun = none := by
  unfold instantiateNode at h
  dsimp only at h
  split at h
  · split at h
    · cases h
    · cases h
      rfl
  · split at h
    · cases h
    · split at h
      · split at h
        · cases h
          rfl
        · cases h
      all_goals first | (cases h; rfl) | cases h

/-- **One resolution of the tools.** Every tool node of a graph belongs to a tool-using developer
of the spec, which is offered exactly the tools the tool node runs: those its spec lists, as far as
its mode lets them through. Its calls are gated exactly in approval mode. -/
theorem exists_developer_of_tools (h : build reg spec = .ok g) {n : NodeName} {impl : NodeImpl}
    {tools : List Tool} (hmem : (n, impl) ∈ g.nodes) (htools : impl.toolsRun = some tools) :
    ∃ m node, n = .tools m ∧ (m, node) ∈ spec.nodes ∧ node.isReact = true ∧
      resolveToolsWithPolicy node reg = .ok tools ∧
      (∃ sys keys rounds, (m, .developerReact sys keys tools rounds) ∈ g.nodes) ∧
      impl = if node.toolMode.getD defaultMode = .approval then .approvalToolNode tools
        else .toolNode tools := by
  obtain ⟨nodes, hnodes, h⟩ := Fallible.bind_eq_ok h
  obtain ⟨edges, -, h⟩ := Fallible.bind_eq_ok h
  cases h
  obtain ⟨added, hadded, hin⟩ := List.mem_flatten.mp hmem
  obtain ⟨⟨m, node⟩, hentry, hadd⟩ := Fallible.exists_mem_of_mem_result hnodes hadded
  have hsub : ∀ entry ∈ added, entry ∈ nodes.flatten :=
    fun entry he => List.mem_flatten.mpr ⟨added, hadded, he⟩
  obtain ⟨dev, hdev, hadd⟩ := Fallible.bind_eq_ok hadd
  by_cases hreact : node.isReact = true
  · rw [if_pos hreact] at hadd
    obtain ⟨tools', htools', hadd⟩ := Fallible.bind_eq_ok hadd
    obtain rfl := Except.ok.inj hadd
    -- A tool-using developer adds itself and its tool node, both over one resolved list.
    rcases List.mem_cons.mp hin with heq | hin
    · cases heq
      rw [toolsRun_instantiateNode hdev] at htools
      cases htools
    · cases List.mem_singleton.mp hin
      have hsame : tools' = tools := by
        revert htools
        split <;> exact fun htools => Option.some.inj htools
      subst hsame
      obtain ⟨sys, keys, rounds, rfl⟩ := instantiateNode_react hreact htools' hdev
      exact ⟨m, node, rfl, hentry, hreact, htools',
        ⟨sys, keys, rounds, hsub _ List.mem_cons_self⟩, rfl⟩
  · rw [if_neg hreact] at hadd
    obtain rfl := Except.ok.inj hadd
    cases List.mem_singleton.mp hin
    rw [toolsRun_instantiateNode hdev] at htools
    cases htools

end Build

/-! ## What runs -/

section Runs

variable {reg : Registry} {spec : GraphSpec} {g : Graph} {b : Bindings} {c d : Config}

/-- Only a tool node starts tool bodies, and only of tools it has. A gated one starts those with
an approving decision. -/
theorem NodeImpl.toolRuns_permitted {impl : NodeImpl} {w : World} {s : TaskState}
    {resumes : List Decision} {run : NodeRun} {call : ToolCall}
    (h : impl.run b w s resumes = .ok run) (hcall : call ∈ run.toolRuns) :
    ∃ tools, impl.toolsRun = some tools ∧ hasTool tools call = true ∧
      (impl = .toolNode tools ∨ impl = .approvalToolNode tools ∧
        ∃ dec ∈ resumes, classifyDecision dec = .approve) := by
  cases impl with
  | toolNode tools =>
      cases h
      exact ⟨tools, rfl, (List.mem_filter.mp hcall).2, .inl rfl⟩
  | approvalToolNode tools =>
      -- A gated node starts the bodies of the calls that are zipped with an approval.
      have happroved : call ∈ approvedCalls tools (pendingCalls s.devMessages) resumes := by
        rcases approvalToolNode_ok h with ⟨_, -, rfl⟩ | ⟨_, -, -, rfl⟩ <;> exact hcall
      obtain ⟨⟨call', dec⟩, hpair, rfl⟩ := List.mem_map.mp happroved
      obtain ⟨hzip, hboth⟩ := List.mem_filter.mp hpair
      obtain ⟨happrove, htool⟩ := Bool.and_eq_true_iff.mp hboth
      exact ⟨tools, rfl, htool, .inr ⟨rfl, dec, (List.of_mem_zip hzip).2, by simpa using happrove⟩⟩
  | developerReact sys keys tools rounds =>
      obtain ⟨convo, events, llmInput, -, rfl⟩ := developerReact_ok h
      cases hcall
  | delivery sys keys =>
      obtain ⟨calls, findings, -, rfl⟩ := delivery_ok h
      cases hcall
  | planner | plannerGate | developer | supervisor | reviewer =>
      cases h
      cases hcall
  | verifier =>
      cases h
      revert hcall
      simp only [AgentRoom.verifier]
      split <;> exact fun hcall => absurd hcall List.not_mem_nil
  | reviewerTwoCall =>
      cases h
      revert hcall
      simp only [AgentRoom.reviewerTwoCall]
      split <;> exact fun hcall => absurd hcall List.not_mem_nil

/-- Writing in place of a node drops the decisions of the node that was scheduled. -/
theorem Graph.updateState_resumes {u : Update} {n : NodeName}
    (h : g.updateState c u n = .ok d) : d.resumes = [] := by
  unfold Graph.updateState at h
  split at h
  · cases h
  · obtain ⟨next, -, h⟩ := Fallible.bind_eq_ok h
    cases h
    rfl

/-- The decisions a checkpoint holds were given at the tool call, earlier in the history. -/
theorem resumes_of_run {taskId : String} {req : TaskRequest} {h : List Action}
    (hrun : Run (ServiceStep g b) (g.start taskId req) h d) :
    ∀ dec ∈ d.resumes, .resumed dec .toolCall ∈ h := by
  refine hrun.log_invariant (P := fun h c => ∀ dec ∈ c.resumes, .resumed dec .toolCall ∈ h) ?_ ?_
  · intro h c a c' hc hstep dec hdec
    cases hstep with
    | superstep hs =>
        obtain ⟨n, impl, -, -, -, -, -, -, ⟨call, -, -, rfl⟩ | ⟨-, -, next, -, rfl⟩⟩ :=
          Graph.superstep_inv hs
        · exact List.mem_append_left _ (hc dec hdec)
        · -- the next node starts without decisions
          cases hdec
    | @resume _ _ dec' atNode hpending hresume =>
        cases atNode with
        | toolCall =>
            cases hresume
            rcases List.mem_append.mp hdec with hdec | hdec
            · exact List.mem_append_left _ (hc dec hdec)
            · obtain rfl := List.mem_singleton.mp hdec
              exact List.mem_append_right _ List.mem_cons_self
        | reviewer =>
            cases dec' with
            | str text =>
                rw [Graph.updateState_resumes hresume] at hdec
                cases hdec
            | dict action message => cases hresume
        | planner =>
            cases dec' with
            | str text =>
                rw [Graph.updateState_resumes hresume] at hdec
                cases hdec
            | dict action message => cases hresume
        | other name => cases dec' <;> cases hresume
  · intro dec hdec
    cases hdec

/-- **No tool runs outside its permission.** Take any spec and registry that build, with one way
out of each node, any bindings and any history of a task. Whenever a tool body is started, the node
is the tool node of a tool-using developer of the spec, the called tool is listed by that
developer's spec, registered and offered to its model, and the developer's mode permits it: a
read-only tool in `read_only` mode, an approving decision given before in `approval` mode. -/
theorem tool_runs_permitted {taskId : String} {req : TaskRequest} {before after : List Action}
    {e : StepLog} {call : ToolCall} (hbuild : build reg spec = .ok g)
    (hrun : Run (ServiceStep g b) (g.start taskId req) (before ++ .superstep e :: after) d)
    (hcall : call ∈ e.run.toolRuns) :
    ∃ m node sys keys tools rounds, ∃ t ∈ tools, e.node = .tools m ∧ (m, node) ∈ spec.nodes ∧
      (m, .developerReact sys keys tools rounds) ∈ g.nodes ∧ t.name = call.name ∧
      t.name ∈ node.tools ∧ Registry.get? reg t.name = some t ∧
      (node.toolMode.getD defaultMode).Permits t before := by
  obtain ⟨c, hbefore, hrest⟩ := hrun.split
  obtain ⟨c', hstep, -⟩ := hrest.cons_inv
  cases hstep with
  | superstep hs =>
      obtain ⟨n, impl, -, -, -, himpl, rfl, hexec, -⟩ := Graph.superstep_inv hs
      obtain ⟨tools, htools, hhas, hgate⟩ := NodeImpl.toolRuns_permitted hexec hcall
      have hmem : (e.node, impl) ∈ g.nodes := by
        obtain ⟨before, after, hnodes, -⟩ := List.lookup_eq_some_iff.mp himpl
        rw [hnodes]
        simp
      obtain ⟨m, node, hm, hnode, -, hresolved, ⟨sys, keys, rounds, hdev⟩, hkind⟩ :=
        exists_developer_of_tools hbuild hmem htools
      obtain ⟨t, ht, hname⟩ := List.any_eq_true.mp hhas
      obtain ⟨hlisted, hregistered, hreadOnly⟩ := resolved_tool hresolved ht
      refine ⟨m, node, sys, keys, tools, rounds, t, ht, hm, hnode, hdev, by simpa using hname,
        hlisted, hregistered, ?_⟩
      -- The permission is read off the mode under which the tools were resolved.
      cases hmode : node.toolMode.getD defaultMode with
      | readOnly => exact hreadOnly hmode
      | unrestricted => trivial
      | approval =>
          rw [hmode, if_pos rfl] at hkind
          rcases hgate with hplain | ⟨-, dec, hdec, happrove⟩
          · rw [hkind] at hplain
            cases hplain
          · exact ⟨dec, resumes_of_run hbefore dec hdec, happrove⟩

end Runs

/-! ## An approved call -/

/-- The developer of `full_react`, behind the approval gate. -/
def gatedDeveloper : NodeSpec := { Preset.reactDeveloper with toolMode := some .approval }

/-- The gated tool node after the approval of its one call. -/
theorem approved_run (tools : List Tool) (htool : hasTool tools globCall = true) {s : TaskState}
    (hcalls : pendingCalls s.devMessages = [globCall]) :
    ∃ run, (NodeImpl.approvalToolNode tools).run {} World.agreeable s [.str "approve"] = .ok run ∧
      run.interrupt = none ∧ run.toolRuns = [globCall] := by
  have hverdict : classifyDecision (.str "approve") = .approve := by decide
  have hanswer : ∃ t, answerCall tools {} World.agreeable globCall (.str "approve") = .ok t := by
    unfold answerCall executeApproved
    rw [hverdict]
    simp only [htool, if_true]
    exact ⟨_, rfl⟩
  obtain ⟨t, ht⟩ := hanswer
  have hruns : approvedCalls tools [globCall] [.str "approve"] = [globCall] := by
    simp [approvedCalls, hverdict, htool]
  have hanswers : (([globCall].zip [Decision.str "approve"]).mapM fun p =>
      answerCall tools {} World.agreeable p.1 p.2) = .ok [t] :=
    Fallible.mapM_cons_ok ht rfl
  have hnode : approvalToolNode tools {} World.agreeable s [.str "approve"] = .ok
      { toolRuns := [globCall], update := { devMessages := [.tool t] } } := by
    simp only [approvalToolNode, hcalls, hruns]
    exact Fallible.ok_bind hanswers
  exact ⟨_, hnode, rfl, rfl⟩

/-- An approved call is run, with the permission of its mode. -/
theorem tool_runs_permitted_approved :
    ∃ (before : List Action) (e : StepLog) (d : Config), e.run.toolRuns = [globCall] ∧
      Run (ServiceStep (Preset.fullReact.compiled Preset.builtinDevTools true) {})
        ((Preset.fullReact.compiled Preset.builtinDevTools true).start "task"
          { title := "t", description := "d" }) (before ++ .superstep e :: []) d ∧
      ∃ (m : NodeName) (node : NodeSpec) (tools : List Tool), ∃ t ∈ tools, e.node = .tools m ∧
        (m, node) ∈ (Preset.fullReact.specWith gatedDeveloper).nodes ∧ t.name = "glob" ∧
        Registry.get? builtinRegistry t.name = some t ∧
        (node.toolMode.getD defaultMode).Permits t before := by
  let g := Preset.fullReact.compiled Preset.builtinDevTools true
  have hresolve : resolveToolsWithPolicy gatedDeveloper builtinRegistry
      = .ok Preset.builtinDevTools := by decide
  have hbuild : build builtinRegistry (Preset.fullReact.specWith gatedDeveloper) = .ok g :=
    Preset.build_specWith rfl rfl rfl rfl hresolve (by decide) .fullReact
  obtain ⟨l, s, hentered, hcalls, -, -⟩ := entered_history Preset.builtinDevTools "task"
    { title := "t", description := "d" } (show [globCall] ≠ [] by simp)
  have hcall : (pendingCalls s.devMessages)[([] : List Decision).length]? = some globCall := by
    rw [hcalls]
    rfl
  have hhalted := Graph.superstep_interrupted (g := g) (b := {}) (w := World.agreeable)
    (c := { values := s, next := some (.tools .developer) }) rfl rfl rfl rfl
    (approvalToolNode_interrupt hcall Preset.builtinDevTools {} World.agreeable) rfl
  obtain ⟨run, hrun, hawake, hruns⟩ := approved_run Preset.builtinDevTools (by decide) hcalls
  have happroved := Graph.superstep_eq (g := g) (b := {}) (w := World.agreeable)
    (c := { values := s, next := some (.tools .developer), resumes := [.str "approve"] })
    rfl rfl rfl rfl hrun hawake (Preset.route_tools _ _ _ rfl)
  have hhistory : Run (ServiceStep g {}) _ _ _ := hentered.map .superstep
    fun _ _ _ _ ⟨_, hs⟩ => .superstep hs
  have hresumed : ServiceStep g {}
      { values := s, next := some (.tools .developer), interrupt := some globCall }
      (.resumed (.str "approve") .toolCall)
      { values := s, next := some (.tools .developer), resumes := [.str "approve"] } :=
    .resume (fun _ => rfl) rfl
  have hfull := ((hhistory.snoc (.superstep hhalted)).snoc hresumed).snoc (.superstep happroved)
  have hmem : globCall ∈ run.toolRuns := hruns ▸ List.mem_singleton_self globCall
  obtain ⟨m, node, -, -, tools, -, t, ht, hm, hnode, -, hname, -, hget, hpermits⟩ :=
    tool_runs_permitted hbuild hfull hmem
  exact ⟨_, _, _, hruns, hfull, m, node, tools, t, ht, hm, hnode, hname, hget, hpermits⟩

end AgentRoom
