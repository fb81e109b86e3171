import AgentRoom.Spec
import AgentRoom.Tools.Approval
import AgentRoom.Roles.Planning
import AgentRoom.Roles.Development
import AgentRoom.Roles.Review
import AgentRoom.Roles.Goal
import AgentRoom.Roles.Delivery

set_option autoImplicit false

/-! # Building and executing graphs

`build` turns a spec into a `Graph`: one implementation per node, a tool node beside every
tool-using developer, and one way out of each node. `Graph.superstep` executes the node a
checkpoint has scheduled: it runs the node, merges its update and asks the node's edge for
the next one. A checkpoint is a `Config`.
-/

namespace AgentRoom

/-- What `_instantiate_node` makes of a node spec, plus the tool nodes. -/
inductive NodeImpl
  | planner (systemPrompt : String) (keys : List ContextKey)
  | plannerGate (systemPrompt : String) (keys : List ContextKey)
  | developer (systemPrompt : String) (keys : List ContextKey)
  | developerReact (systemPrompt : String) (keys : List ContextKey) (tools : List Tool)
      (maxDevRounds : Nat)
  | reviewer (systemPrompt : String) (keys : List ContextKey)
  | reviewerTwoCall (systemPrompt : String) (keys : List ContextKey)
  | delivery (systemPrompt : String) (keys : List ContextKey)
  | verifier
  | supervisor (systemPrompt : String)
  | toolNode (tools : List Tool)
  | approvalToolNode (tools : List Tool)

/-- Execute a node. `resumes` are the decisions recorded for it, empty unless it is a tool
node that was interrupted. -/
def NodeImpl.run (impl : NodeImpl) (b : Bindings) (w : World) (s : TaskState)
    (resumes : List Decision) : Except NodeError NodeRun :=
  match impl with
  | .planner sys keys => .ok (AgentRoom.planner sys keys w s)
  | .plannerGate sys keys => .ok (AgentRoom.plannerGate sys keys w s)
  | .developer sys keys => .ok (AgentRoom.developer sys keys w s)
  | .developerReact sys keys _ maxDevRounds =>
      AgentRoom.developerReact sys keys maxDevRounds b w s
  | .reviewer sys keys => .ok (AgentRoom.reviewer sys keys w s)
  | .reviewerTwoCall sys keys => .ok (AgentRoom.reviewerTwoCall sys keys w s)
  | .delivery sys keys => AgentRoom.delivery sys keys b w s
  | .verifier => .ok (AgentRoom.verifier w s)
  | .supervisor sys => .ok (AgentRoom.supervisor sys w s)
  | .toolNode tools => .ok (AgentRoom.toolNode tools b w s)
  | .approvalToolNode tools => AgentRoom.approvalToolNode tools b w s resumes

/-- The way out of a node. `react` is the `tools_condition` branch of a tool-using developer. -/
inductive Edge
  | to (target : Option NodeName)
  | router (router : RouterName) (branches : List (Signal × Option NodeName))
  | react (toolNode : NodeName) (onEnd : Option NodeName)

structure Graph where
  entry : NodeName
  nodes : List (NodeName × NodeImpl)
  edges : List (NodeName × Edge)

/-! ## Building -/

/-- Why a spec does not build. -/
inductive BuildError
  | unregisteredTool
  | allToolsFilteredOut
  | toolsOnlyForDeveloper
  | unknownVariant
  | conditionalEdgeFromReact
  deriving DecidableEq, Repr

/-- `_resolve_tools_with_policy`. -/
def resolveToolsWithPolicy (spec : NodeSpec) (reg : Registry) : Except BuildError (List Tool) :=
  match resolveToolNames spec.tools reg with
  | none => .error .unregisteredTool
  | some raw =>
      let filtered := applyPolicy raw (spec.toolMode.getD defaultMode)
      if spec.tools ≠ [] ∧ filtered = [] then .error .allToolsFilteredOut else .ok filtered

/-- `_is_react_node`. -/
def NodeSpec.isReact (spec : NodeSpec) : Bool :=
  !spec.tools.isEmpty && spec.role == .developer && spec.variant == none

/-- `_instantiate_node`. -/
def instantiateNode (spec : NodeSpec) (reg : Registry) : Except BuildError NodeImpl :=
  -- an empty override counts as none
  let sys (default : String) :=
    if Py.truthy spec.promptOverride then spec.promptOverride.getD default else default
  let keys := spec.extraContextKeys
  if spec.isReact then
    match resolveToolsWithPolicy spec reg with
    | .error e => .error e
    | .ok tools =>
        .ok (.developerReact (sys developerSystemWithTools) keys tools (spec.maxDevRounds.getD 6))
  else if spec.tools ≠ [] ∧ spec.role ≠ .developer then .error .toolsOnlyForDeveloper
  else
    match spec.role, spec.variant with
    | .verifier, _ =>
        -- its workspace is the root of the registered `read_text`
        if (Registry.get? reg "read_text").isSome then .ok .verifier
        else .error .unregisteredTool
    | .planner, none => .ok (.planner (sys plannerSystem) keys)
    | .developer, none => .ok (.developer (sys developerSystem) keys)
    | .reviewer, none => .ok (.reviewer (sys reviewerSystem) keys)
    | .delivery, none => .ok (.delivery (sys deliverySystem) keys)
    | .supervisor, none => .ok (.supervisor (sys supervisorSystem))
    | .planner, some .gate => .ok (.plannerGate (sys plannerGateSystem) keys)
    | .reviewer, some .twoCall => .ok (.reviewerTwoCall (sys reviewerTwoCallSystem) keys)
    | _, _ => .error .unknownVariant

/-- The developer of a tool-using node is given the tools its spec resolves to. -/
theorem instantiateNode_react {node : NodeSpec} {reg : Registry} {impl : NodeImpl}
    {tools : List Tool} (hreact : node.isReact = true)
    (htools : resolveToolsWithPolicy node reg = .ok tools)
    (h : instantiateNode node reg = .ok impl) :
    ∃ sys keys rounds, impl = .developerReact sys keys tools rounds := by
  unfold instantiateNode at h
  rw [if_pos hreact, htools] at h
  cases h
  exact ⟨_, _, _, rfl⟩

/-- The nodes one entry of `spec.nodes` adds to the graph. -/
def addNode (reg : Registry) (entry : NodeName × NodeSpec) :
    Except BuildError (List (NodeName × NodeImpl)) := do
  let impl ← instantiateNode entry.2 reg
  if entry.2.isReact then
    let tools ← resolveToolsWithPolicy entry.2 reg
    let toolImpl : NodeImpl :=
      if entry.2.toolMode.getD defaultMode = .approval then .approvalToolNode tools
      else .toolNode tools
    .ok [(entry.1, impl), (.tools entry.1, toolImpl)]
  else .ok [(entry.1, impl)]

/-- The node named `n` is a tool-using developer. -/
def GraphSpec.isReactNode (spec : GraphSpec) (n : NodeName) : Bool :=
  match spec.nodes.lookup n with
  | some node => node.isReact
  | none => false

/-- The edges one entry of `spec.edges` adds to the graph. -/
def addEdge (spec : GraphSpec) : EdgeSpec → Except BuildError (List (NodeName × Edge))
  | .to src target =>
      if spec.isReactNode src then
        .ok [(src, .react (.tools src) target), (.tools src, .to (some src))]
      else .ok [(src, .to target)]
  | .branches src router branches =>
      -- the way out of a tool-using developer is taken by `tools_condition`
      if spec.isReactNode src then .error .conditionalEdgeFromReact
      else .ok [(src, .router (router.getD .reviewRouter) branches)]

/-- `build_uncompiled_from_spec`. -/
def build (reg : Registry) (spec : GraphSpec) : Except BuildError Graph := do
  let nodes ← spec.nodes.mapM (addNode reg)
  let edges ← spec.edges.mapM (addEdge spec)
  .ok { entry := spec.entry, nodes := nodes.flatten, edges := edges.flatten }

/-! ## Executing -/

/-- A checkpoint: the state, the node scheduled next, and what an interrupted tool node is
waiting for. `next = none` is the end of the graph. -/
structure Config where
  values : TaskState
  next : Option NodeName
  /-- The decisions recorded for the scheduled node. -/
  resumes : List Decision := []
  /-- The tool call the scheduled node's pending interrupt asks about. -/
  interrupt : Option ToolCall := none

/-- The record of one superstep. -/
structure StepLog where
  node : NodeName
  run : NodeRun
  /-- The state after the superstep. -/
  after : TaskState

namespace Graph

/-- The implementation of a node. -/
def impl (g : Graph) (n : NodeName) : Option NodeImpl := g.nodes.lookup n

/-- The node that follows `n` in a state, `none` at the end of the graph. -/
def route (g : Graph) (n : NodeName) (s : TaskState) : Except NodeError (Option NodeName) :=
  match g.edges.lookup n with
  | none => .ok none
  | some (.to target) => .ok target
  | some (.router router branches) =>
      -- the dict of the branches keeps the last of two with one label
      match branches.reverse.lookup (router.signal s) with
      | some target => .ok target
      | none => .error .noSuchBranch
  | some (.react toolNode onEnd) =>
      -- `tools_condition` raises where there is no message to look at
      if s.devMessages.isEmpty then .error .valueError
      else if pendingCalls s.devMessages = [] then .ok onEnd
      else .ok (some toolNode)

/-- Execute the scheduled node. An interrupted node writes nothing and stays scheduled. -/
def superstep (g : Graph) (b : Bindings) (w : World) (c : Config) :
    Except NodeError (StepLog × Config) :=
  match c.next, c.interrupt with
  | none, _ => .error .nothingScheduled
  | some _, some _ => .error .nothingScheduled
  | some n, none =>
      match w.raises, g.impl n with
      | some reason, _ => .error (.raised reason)
      | none, none => .error .noSuchNode
      | none, some impl => do
          let run ← impl.run b w c.values c.resumes
          match run.interrupt with
          -- the writes of an interrupted node are discarded
          | some call => .ok (⟨n, run, c.values⟩, { c with interrupt := some call })
          | none =>
              let s := c.values.apply run.update
              let next ← g.route n s
              .ok (⟨n, run, s⟩, { values := s, next := next })

/-- `aupdate_state(config, update, as_node)`: write the update as if `asNode` had returned it
and schedule that node's successor. Whatever was scheduled before is dropped. -/
def updateState (g : Graph) (c : Config) (u : Update) (asNode : NodeName) :
    Except NodeError Config :=
  match g.impl asNode with
  | none => .error .noSuchNode
  | some _ => do
      let s := c.values.apply u
      let next ← g.route asNode s
      .ok { values := s, next := next }

end Graph

end AgentRoom
