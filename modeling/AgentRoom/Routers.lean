import AgentRoom.State

set_option autoImplicit false

/-! # Edge routers

Pure functions from the state to a signal; the branches of an edge map signals to nodes.
-/

namespace AgentRoom

/-- The labels routers return. -/
inductive Signal
  | developer | delivery | reviewer | supervisor | planner | halt
  deriving DecidableEq, Repr

/-- `review_router`. -/
def reviewRouter (s : TaskState) : Signal :=
  match s.review with
  | none => .halt
  | some review =>
      if review.decision = .approved then .delivery
      else if review.decision = .needUserDecision then .halt
      else if s.revisionRound > s.maxRevisions then .halt
      else .developer

/-- `STUCK_EVERY`. -/
def stuckEvery : Nat := 3

/-- `goal_router`. -/
def goalRouter (s : TaskState) : Signal :=
  match s.verification with
  | none => .reviewer
  | some verification =>
      if verification.passed then .delivery
      else if s.verifyRound ≥ s.maxIterations then .halt
      else if s.verifyRound > 0 ∧ s.verifyRound % stuckEvery = 0 then .supervisor
      else .developer

/-- `stuck_router`. -/
def stuckRouter (s : TaskState) : Signal :=
  match s.stuckDecision with
  | none => .halt
  | some decision =>
      match decision.action with
      | .continue => .developer
      | .replan => .planner
      | .askUser => .halt
      | .abort => .halt

/-- `planner_gate_router`. -/
def plannerGateRouter (s : TaskState) : Signal :=
  if s.openQuestions ≠ [] then .halt
  else if (s.review.map ReviewerDecision.decision) = some .needUserDecision then .halt
  else if Py.truthy s.plan then .developer
  else .halt

/-- The routers a spec can name by dotted path. -/
inductive RouterName
  | reviewRouter | goalRouter | stuckRouter | plannerGateRouter
  deriving DecidableEq, Repr

def RouterName.signal : RouterName → TaskState → Signal
  | .reviewRouter => AgentRoom.reviewRouter
  | .goalRouter => AgentRoom.goalRouter
  | .stuckRouter => AgentRoom.stuckRouter
  | .plannerGateRouter => AgentRoom.plannerGateRouter

/-- The labels a router may return, as the type of its result lists them. -/
def RouterName.signals : RouterName → List Signal
  | .reviewRouter => [.developer, .delivery, .halt]
  | .goalRouter => [.delivery, .developer, .reviewer, .supervisor, .halt]
  | .stuckRouter => [.developer, .planner, .halt]
  | .plannerGateRouter => [.developer, .halt]

/-- What lets a planner gate pass. -/
theorem plannerGateRouter_eq_developer_iff {s : TaskState} :
    plannerGateRouter s = .developer ↔
      s.openQuestions = [] ∧ (s.review.map ReviewerDecision.decision) ≠ some .needUserDecision ∧
        Py.truthy s.plan = true := by
  unfold plannerGateRouter
  split_ifs <;> simp_all

end AgentRoom
