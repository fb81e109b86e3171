import AgentRoom.Routers
import AgentRoom.Tools.Policy
import AgentRoom.Prompt.Developer

set_option autoImplicit false

/-! # Graph specs and the shipped presets

A spec lists nodes and edges; an edge is unconditional or has a router and branches. The
presets are the YAML files under `presets/`. A target of `none` is `__end__`.
-/

namespace AgentRoom

/-- The node names of the presets. The tool node of a node `n` is named `n_tools`. -/
inductive NodeName
  | planner | developer | verify | supervisor | reviewer | delivery
  | tools (node : NodeName)
  deriving DecidableEq, Repr

/-- The registered role variants. -/
inductive Variant
  | gate | twoCall
  deriving DecidableEq, Repr

structure NodeSpec where
  role : Role
  variant : Option Variant := none
  promptOverride : Option String := none
  extraContextKeys : List ContextKey := []
  tools : List String := []
  toolMode : Option PermissionMode := none
  maxDevRounds : Option Nat := none

/-- Exactly one of `to` and `branches`; an absent router is `review_router`. -/
inductive EdgeSpec
  | to (from_ : NodeName) (target : Option NodeName)
  | branches (from_ : NodeName) (router : Option RouterName)
      (branches : List (Signal × Option NodeName))

structure GraphSpec where
  name : String
  entry : NodeName
  nodes : List (NodeName × NodeSpec)
  edges : List EdgeSpec

/-! ## The presets -/

/-- The files under `presets/`. -/
inductive Preset
  | full | fullReact | twoCallReview | plannerGate | goal | devReview | solo
  deriving DecidableEq, Repr

namespace Preset

/-- The name a preset is loaded by. -/
def name : Preset → String
  | full => "full"
  | fullReact => "full_react"
  | twoCallReview => "two_call_review"
  | plannerGate => "planner_gate"
  | goal => "goal"
  | devReview => "dev_review"
  | solo => "solo"

/-- The tools the presets grant a tool-using developer. -/
def toolNames : List String := ["glob", "read_text", "write_text", "shell"]

/-- The tool-using developer of `full_react.yaml` and `goal.yaml`. -/
def reactDeveloper : NodeSpec :=
  { role := .developer, tools := toolNames, toolMode := some .unrestricted
    maxDevRounds := some 8 }

/-- The reviewer's edge of every preset that ends in a delivery. -/
def reviewEdge : EdgeSpec :=
  .branches .reviewer none
    [(.developer, some .developer), (.delivery, some .delivery), (.halt, none)]

/-- The shape `full.yaml` shares with its variants. -/
def pipeline (name : String) (planner developer reviewer : NodeSpec)
    (plannerEdge : EdgeSpec) : GraphSpec :=
  { name := name
    entry := .planner
    nodes := [(.planner, planner), (.developer, developer), (.reviewer, reviewer),
      (.delivery, { role := .delivery })]
    edges := [plannerEdge, .to .developer (some .reviewer), reviewEdge, .to .delivery none] }

/-- A preset with `dev` as the tool-using developer of `full_react` and `goal`. -/
def specWith (p : Preset) (dev : NodeSpec) : GraphSpec :=
  match p with
  | full => pipeline "full" { role := .planner } { role := .developer } { role := .reviewer }
      (.to .planner (some .developer))
  | fullReact => pipeline "full_react" { role := .planner } dev { role := .reviewer }
      (.to .planner (some .developer))
  | twoCallReview => pipeline "two_call_review" { role := .planner } { role := .developer }
      { role := .reviewer, variant := some .twoCall } (.to .planner (some .developer))
  | plannerGate => pipeline "planner_gate" { role := .planner, variant := some .gate }
      { role := .developer } { role := .reviewer }
      (.branches .planner (some .plannerGateRouter)
        [(.developer, some .developer), (.halt, none)])
  | goal =>
      { name := "goal"
        entry := .planner
        nodes := [(.planner, { role := .planner }), (.developer, dev),
          (.verify, { role := .verifier }), (.supervisor, { role := .supervisor }),
          (.reviewer, { role := .reviewer }), (.delivery, { role := .delivery })]
        edges := [.to .planner (some .developer), .to .developer (some .verify),
          .branches .verify (some .goalRouter)
            [(.delivery, some .delivery), (.developer, some .developer),
              (.reviewer, some .reviewer), (.supervisor, some .supervisor), (.halt, none)],
          .branches .supervisor (some .stuckRouter)
            [(.developer, some .developer), (.planner, some .planner), (.halt, none)],
          reviewEdge, .to .delivery none] }
  | devReview =>
      { name := "dev_review"
        entry := .developer
        nodes := [(.developer, { role := .developer }), (.reviewer, { role := .reviewer })]
        edges := [.to .developer (some .reviewer),
          .branches .reviewer none
            [(.developer, some .developer), (.delivery, none), (.halt, none)]] }
  | solo =>
      { name := "solo"
        entry := .developer
        nodes := [(.developer,
          { role := .developer, extraContextKeys := [.title, .description] })]
        edges := [.to .developer none] }

/-- The spec each preset file holds. -/
def spec (p : Preset) : GraphSpec := p.specWith reactDeveloper

end Preset

/-- `load_preset`, by the preset's name; `none` is the `FileNotFoundError`. -/
def loadPreset (name : String) : Option Preset :=
  [Preset.full, .fullReact, .twoCallReview, .plannerGate, .goal, .devReview, .solo].find?
    (fun p => p.name == name)

theorem name_of_loadPreset {name : String} {p : Preset} (h : loadPreset name = some p) :
    p.name = name := by
  simpa using List.find?_some h

end AgentRoom
