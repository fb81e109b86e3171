import AgentRoom.Service
import AgentRoom.Lib.Fallible

set_option autoImplicit false

/-! # The compiled presets

`build` on the preset specs, evaluated once and for all: `Preset.compiled` is the graph it
returns, with the tools the registry resolved and the kind of tool node left open, so that
the same graphs also cover the specs a server derives from the presets.
-/

namespace AgentRoom

open Fallible

/-- The registry with the four built-in tools. -/
def builtinRegistry : Registry :=
  [{ name := "read_text" }, { name := "write_text" }, { name := "glob" }, { name := "shell" }]

namespace Preset

/-- The developer of the preset uses tools. -/
def usesTools : Preset → Bool
  | fullReact | goal => true
  | _ => false

/-- The preset has the four-role shape: it starts at a planner and can deliver. -/
def delivers : Preset → Bool
  | devReview | solo => false
  | _ => true

theorem delivers_of_usesTools {p : Preset} (hu : p.usesTools = true) : p.delivers = true := by
  cases p <;> first | rfl | cases hu

theorem ne_plannerGate_of_usesTools {p : Preset} (hu : p.usesTools = true) : p ≠ .plannerGate := by
  rintro rfl
  cases hu

theorem ne_solo_of_usesTools {p : Preset} (hu : p.usesTools = true) : p ≠ .solo := by
  rintro rfl
  cases hu

/-- Where the developer hands over. -/
def afterDeveloper : Preset → Option NodeName
  | goal => some .verify
  | solo => none
  | _ => some .reviewer

/-- The nodes of the compiled preset. -/
def compiledNodes (p : Preset) (tools : List Tool) (approval : Bool) :
    List (NodeName × NodeImpl) :=
  let react : List (NodeName × NodeImpl) :=
    [(.developer, .developerReact developerSystemWithTools [] tools 8),
      (.tools .developer, if approval then .approvalToolNode tools else .toolNode tools)]
  let plain : NodeName × NodeImpl := (.developer, .developer developerSystem [])
  let planner : NodeName × NodeImpl := (.planner, .planner plannerSystem [])
  let reviewer : NodeName × NodeImpl := (.reviewer, .reviewer reviewerSystem [])
  let delivery : NodeName × NodeImpl := (.delivery, .delivery deliverySystem [])
  match p with
  | full => [planner, plain, reviewer, delivery]
  | fullReact => planner :: react ++ [reviewer, delivery]
  | twoCallReview =>
      [planner, plain, (.reviewer, .reviewerTwoCall reviewerTwoCallSystem []), delivery]
  | plannerGate => [(.planner, .plannerGate plannerGateSystem []), plain, reviewer, delivery]
  | goal => planner :: react ++
      [(.verify, .verifier), (.supervisor, .supervisor supervisorSystem), reviewer, delivery]
  | devReview => [plain, reviewer]
  | solo => [(.developer, .developer developerSystem [.title, .description])]

/-- The edges of the compiled preset. -/
def compiledEdges (p : Preset) : List (NodeName × Edge) :=
  let toDeveloper : NodeName × Edge := (.planner, .to (some .developer))
  let plain : NodeName × Edge := (.developer, .to (some .reviewer))
  let react (onEnd : NodeName) : List (NodeName × Edge) :=
    [(.developer, .react (.tools .developer) (some onEnd)),
      (.tools .developer, .to (some .developer))]
  let review : NodeName × Edge := (.reviewer, .router .reviewRouter
    [(.developer, some .developer), (.delivery, some .delivery), (.halt, none)])
  let deliver : NodeName × Edge := (.delivery, .to none)
  match p with
  | full => [toDeveloper, plain, review, deliver]
  | fullReact => toDeveloper :: react .reviewer ++ [review, deliver]
  | twoCallReview => [toDeveloper, plain, review, deliver]
  | plannerGate => [(.planner, .router .plannerGateRouter
      [(.developer, some .developer), (.halt, none)]), plain, review, deliver]
  | goal => toDeveloper :: react .verify ++
      [(.verify, .router .goalRouter
        [(.delivery, some .delivery), (.developer, some .developer),
          (.reviewer, some .reviewer), (.supervisor, some .supervisor), (.halt, none)]),
       (.supervisor, .router .stuckRouter
        [(.developer, some .developer), (.planner, some .planner), (.halt, none)]),
       review, deliver]
  | devReview => [plain, (.reviewer, .router .reviewRouter
      [(.developer, some .developer), (.delivery, none), (.halt, none)])]
  | solo => [(.developer, .to none)]

/-- The compiled preset. -/
def compiled (p : Preset) (tools : List Tool) (approval : Bool) : Graph where
  entry := if p.delivers then .planner else .developer
  nodes := p.compiledNodes tools approval
  edges := p.compiledEdges

/-! ## Building

The developer is the only node of a preset that the registry and the tool mode reach; every
other node and edge is what the spec says by computation. -/

/-- A spec builds when its nodes and its edges do. -/
theorem build_of_mapM {reg : Registry} {spec : GraphSpec}
    {nodes : List (List (NodeName × NodeImpl))} {edges : List (List (NodeName × Edge))}
    (hnodes : spec.nodes.mapM (addNode reg) = .ok nodes)
    (hedges : spec.edges.mapM (addEdge spec) = .ok edges) :
    build reg spec
      = .ok { entry := spec.entry, nodes := nodes.flatten, edges := edges.flatten } := by
  rw [build, ok_bind hnodes, ok_bind hedges]

/-- The two nodes a tool-using developer adds. -/
theorem addNode_react {reg : Registry} {dev : NodeSpec} {tools : List Tool}
    (hreact : dev.isReact = true) (hover : dev.promptOverride = none)
    (hkeys : dev.extraContextKeys = []) (hrounds : dev.maxDevRounds = some 8)
    (hresolve : resolveToolsWithPolicy dev reg = .ok tools) (n : NodeName) :
    addNode reg (n, dev) = .ok
      [(n, .developerReact developerSystemWithTools [] tools 8),
        (.tools n, if decide (dev.toolMode.getD defaultMode = .approval)
          then .approvalToolNode tools else .toolNode tools)] := by
  have himpl : instantiateNode dev reg
      = .ok (.developerReact developerSystemWithTools [] tools 8) := by
    simp [instantiateNode, hreact, hover, hkeys, hrounds, hresolve]
  rw [addNode, ok_bind himpl, if_pos hreact, ok_bind hresolve]
  simp

/-- The verifier needs `read_text`. -/
theorem addNode_verifier {reg : Registry}
    (hread : (Registry.get? reg "read_text").isSome = true) (n : NodeName) :
    addNode reg (n, { role := .verifier }) = .ok [(n, .verifier)] := by
  have himpl : instantiateNode { role := .verifier } reg = .ok .verifier := by
    simp [instantiateNode, NodeSpec.isReact, hread]
  rw [addNode, ok_bind himpl]
  rfl

/-- A preset without a tool-using developer is what its spec says by computation. -/
theorem build_plain {reg : Registry} {dev : NodeSpec} {p : Preset} (hu : p.usesTools = false)
    (tools : List Tool) (approval : Bool) :
    build reg (p.specWith dev) = .ok (p.compiled tools approval) := by
  cases p <;> first | rfl | cases hu

/-- The edges of a tool-using preset, in any spec with the same tool-using nodes. -/
theorem exists_edges_specWith {dev : NodeSpec} (hreact : dev.isReact = true) {p : Preset}
    (hu : p.usesTools = true) {spec : GraphSpec}
    (hspec : spec.isReactNode = (p.specWith dev).isReactNode) :
    ∃ edges, (p.specWith dev).edges.mapM (addEdge spec) = .ok edges ∧
      edges.flatten = p.compiledEdges := by
  have haddEdge : addEdge spec = addEdge (p.specWith dev) := by
    funext edge
    simp only [addEdge, hspec]
  rw [haddEdge]
  cases p with
  | full | twoCallReview | plannerGate | devReview | solo => cases hu
  | fullReact =>
      have hedge : addEdge (specWith .fullReact dev) (.to .developer (some .reviewer)) = .ok
          [(.developer, .react (.tools .developer) (some .reviewer)),
            (.tools .developer, .to (some .developer))] := if_pos hreact
      exact ⟨_, mapM_cons_ok rfl (mapM_cons_ok hedge rfl), rfl⟩
  | goal =>
      have hedge : addEdge (specWith .goal dev) (.to .developer (some .verify)) = .ok
          [(.developer, .react (.tools .developer) (some .verify)),
            (.tools .developer, .to (some .developer))] := if_pos hreact
      exact ⟨_, mapM_cons_ok rfl (mapM_cons_ok hedge rfl), rfl⟩

/-- **Building a preset** whose tool-using developer resolves to `tools`. -/
theorem build_specWith {reg : Registry} {dev : NodeSpec} {tools : List Tool}
    (hreact : dev.isReact = true) (hover : dev.promptOverride = none)
    (hkeys : dev.extraContextKeys = []) (hrounds : dev.maxDevRounds = some 8)
    (hresolve : resolveToolsWithPolicy dev reg = .ok tools)
    (hread : (Registry.get? reg "read_text").isSome = true) (p : Preset) :
    build reg (p.specWith dev)
      = .ok (p.compiled tools (decide (dev.toolMode.getD defaultMode = .approval))) := by
  have hdev := addNode_react hreact hover hkeys hrounds hresolve .developer
  cases p with
  | full | twoCallReview | plannerGate | devReview | solo => exact build_plain rfl _ _
  | fullReact =>
      have hnodes : (specWith .fullReact dev).nodes.mapM (addNode reg) = .ok
          [[(.planner, .planner plannerSystem [])], _,
            [(.reviewer, .reviewer reviewerSystem [])],
            [(.delivery, .delivery deliverySystem [])]] :=
        mapM_cons_ok rfl (mapM_cons_ok hdev rfl)
      obtain ⟨edges, hedges, hflat⟩ := exists_edges_specWith hreact (p := .fullReact) rfl rfl
      rw [build_of_mapM hnodes hedges, hflat]
      rfl
  | goal =>
      have hnodes : (specWith .goal dev).nodes.mapM (addNode reg) = .ok
          [[(.planner, .planner plannerSystem [])], _, [(.verify, .verifier)],
            [(.supervisor, .supervisor supervisorSystem)],
            [(.reviewer, .reviewer reviewerSystem [])],
            [(.delivery, .delivery deliverySystem [])]] :=
        mapM_cons_ok rfl (mapM_cons_ok hdev (mapM_cons_ok (addNode_verifier hread _) rfl))
      obtain ⟨edges, hedges, hflat⟩ := exists_edges_specWith hreact (p := .goal) rfl rfl
      rw [build_of_mapM hnodes hedges, hflat]
      rfl

/-- The built-in tools, in the order the presets grant them. -/
def builtinDevTools : List Tool :=
  [{ name := "glob" }, { name := "read_text" }, { name := "write_text" }, { name := "shell" }]

/-- What a preset file builds to with the built-in tools. -/
def graph (p : Preset) : Graph :=
  match build builtinRegistry p.spec with
  | .ok g => g
  | .error _ => { entry := .planner, nodes := [], edges := [] }

/-- **Every preset builds**, and to its compiled form. -/
theorem graph_eq (p : Preset) : p.graph = p.compiled builtinDevTools false := by
  have hresolve : resolveToolsWithPolicy reactDeveloper builtinRegistry
      = .ok builtinDevTools := by decide
  have hbuild := build_specWith (show reactDeveloper.isReact = true from rfl) rfl rfl rfl hresolve
    (by decide) p
  rw [graph, spec, hbuild]
  rfl

/-- The way out of the developer tells a tool-using preset from all others. -/
theorem compiled_inj {p p' : Preset} {tools : List Tool} {approval : Bool} (hu : p.usesTools = true)
    (h : p.compiled tools approval = p'.compiled tools approval) : p = p' := by
  have hedge : p.compiledEdges.lookup .developer = p'.compiledEdges.lookup .developer :=
    congrArg (fun g => g.edges.lookup NodeName.developer) h
  cases p <;> first
    | contradiction
    | (cases p' <;> first | rfl | cases hedge)

end Preset

end AgentRoom
