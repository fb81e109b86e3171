import AgentRoom.Graph
import AgentRoom.Lib.Runs

set_option autoImplicit false

/-! # The service: starting, resuming and reading tasks

`AgentRoomService.run` executes a graph from `initialState` until nothing is scheduled.
`resume` first rewrites the checkpoint (`beginResume`) and then executes it in the same way.
A task's history is any interleaving of supersteps and resumes (`ServiceStep`): a run may
stop between two supersteps at any time, because a node raised or the process went away, and
the service accepts a resume in every status.
-/

namespace AgentRoom

/-- `_REACT_TURN_STEPS`. -/
def reactTurnSteps : Nat := 2 * 8 + 1

/-- `_FIXED_OVERHEAD`. -/
def fixedOverhead : Nat := 10

/-- `GRAPH_RECURSION_LIMIT`. -/
def graphRecursionLimit : Nat := fixedOverhead + (max 10 50 + 1) * (reactTurnSteps + 1)

/-- `_initial_state`. -/
def initialState (taskId : String) (req : TaskRequest) : TaskState :=
  { taskId := taskId
    title := req.title
    description := req.description
    maxRevisions := req.maxRevisions
    verifyCommand := req.verifyCommand
    verifyFiles := req.verifyFiles
    maxIterations := req.maxIterations }

/-- The checkpoint `ainvoke(_initial_state(...))` starts from. -/
def Graph.start (g : Graph) (taskId : String) (req : TaskRequest) : Config :=
  { values := initialState taskId req, next := some g.entry }

/-- `_materialize_status`. -/
def materializeStatus (s : TaskState) (hasPendingToolCalls : Bool) : TaskStatus :=
  let decision := s.review.map ReviewerDecision.decision
  if hasPendingToolCalls then .awaitingUser
  -- from here on the first signal decides, whichever was written last
  else if Py.truthy s.delivery then .completed
  else if decision = some .needUserDecision then .awaitingUser
  else if decision = some .revisionRequired ∧ s.revisionRound > s.maxRevisions then .failed
  else if (s.stuckDecision.map StuckDecision.action) = some .abort then .failed
  else if (s.verification.map VerificationResult.passed) = some false ∧
      s.verifyRound ≥ s.maxIterations then .failed
  else .running

/-- The status of a snapshot. -/
def Config.status (c : Config) : TaskStatus :=
  materializeStatus c.values c.interrupt.isSome

/-- What a task is shown as. -/
structure TaskResult where
  taskId : String
  status : TaskStatus
  plan : Option String := none
  code : Option String := none
  review : Option ReviewerDecision := none
  delivery : Option String := none
  rounds : Nat := 0
  verification : Option VerificationResult := none
  stuckDecision : Option StuckDecision := none
  artifacts : List Artifact := []
  events : List Event := []
  pendingToolCalls : List ToolCall := []

/-- `materialize_result`, and with it `AgentRoomService.snapshot`. -/
def materializeResult (taskId : String) (c : Config) : TaskResult where
  taskId
  status := c.status
  plan := c.values.plan
  code := c.values.code
  review := c.values.review
  delivery := c.values.delivery
  rounds := c.values.revisionRound
  verification := c.values.verification
  stuckDecision := c.values.stuckDecision
  artifacts := c.values.artifacts
  events := c.values.events
  pendingToolCalls := c.interrupt.toList

/-! ## Resuming -/

/-- The `at_node` argument of `resume`. -/
inductive AtNode
  | reviewer | planner | toolCall
  | other (name : String)
  deriving DecidableEq, Repr

def AtNode.text : AtNode → String
  | .reviewer => "reviewer"
  | .planner => "planner"
  | .toolCall => "tool_call"
  | .other name => name

/-- The event a resume records. -/
def userDecisionApplied (text : String) (atNode : AtNode) : Event :=
  { type := "user_decision_applied"
    payload := [("decision", .str text), ("at_node", .str atNode.text)] }

/-- The review a resume at the reviewer writes. -/
def resumeReview : ReviewerDecision :=
  { decision := .revisionRequired
    feedback := "See user directive in state.user_directives"
    confidence := 1
    confidence_nonneg := fullConfidence_nonneg
    confidence_le_one := fullConfidence_le_one }

/-- The update of a resume at the reviewer. -/
def reviewerResumeUpdate (text : String) : Update :=
  { review := some (some resumeReview)
    userDirectives := [text]
    events := [userDecisionApplied text .reviewer] }

/-- The update of a resume at the planner. -/
def plannerResumeUpdate (text : String) : Update :=
  { review := some none
    openQuestions := some []
    userDirectives := [text]
    events := [userDecisionApplied text .planner] }

/-- `AgentRoomService.resume` up to the point where the graph is executed again. -/
def Graph.beginResume (g : Graph) (c : Config) (d : Decision) (atNode : AtNode) :
    Except NodeError Config :=
  match atNode, d with
  -- the decision goes to the interrupted node, and nothing is rewritten
  | .toolCall, _ => .ok { c with resumes := c.resumes ++ [d], interrupt := none }
  | _, .dict _ _ => .error .typeError
  | .reviewer, .str text => g.updateState c (reviewerResumeUpdate text) .reviewer
  | .planner, .str text => g.updateState c (plannerResumeUpdate text) .planner
  | .other _, .str _ => .error .valueError

/-! ## Histories -/

/-- One step of a task's history. -/
inductive Action
  | superstep (log : StepLog)
  | resumed (d : Decision) (atNode : AtNode)

/-- A superstep of the graph, or the start of a resume. A tool-call resume needs a pending
tool call. -/
inductive ServiceStep (g : Graph) (b : Bindings) : Config → Action → Config → Prop
  | superstep {w : World} {c c' : Config} {e : StepLog} :
      g.superstep b w c = .ok (e, c') → ServiceStep g b c (.superstep e) c'
  | resume {c c' : Config} {d : Decision} {atNode : AtNode} :
      (atNode = .toolCall → c.interrupt.isSome) → g.beginResume c d atNode = .ok c' →
      ServiceStep g b c (.resumed d atNode) c'

/-- A superstep, the kind of step that `GRAPH_RECURSION_LIMIT` counts. -/
def Action.isSuperstep : Action → Bool
  | .superstep _ => true
  | .resumed _ _ => false

/-- The supersteps of a history. -/
def executed (h : List Action) : List StepLog :=
  h.filterMap (fun a => match a with
    | .superstep e => some e
    | .resumed _ _ => none)

@[simp] theorem executed_nil : executed [] = [] := rfl

@[simp] theorem executed_append (h h' : List Action) :
    executed (h ++ h') = executed h ++ executed h' := List.filterMap_append

@[simp] theorem executed_superstep (e : StepLog) : executed [.superstep e] = [e] := rfl

@[simp] theorem executed_resumed (d : Decision) (atNode : AtNode) :
    executed [.resumed d atNode] = [] := rfl

/-! ## Runs without resumes -/

/-- The model returned no tool call in a reply to a call without bound tools. -/
def NodeRun.Honest (r : NodeRun) : Prop :=
  ∀ call ∈ r.calls, call.toolsBound = false → ∀ m, call.reply = some m → m.toolCalls = []

/-- One superstep, in some world. -/
def Superstep (g : Graph) (b : Bindings) (c : Config) (e : StepLog) (c' : Config) : Prop :=
  ∃ w, g.superstep b w c = .ok (e, c')

/-- One superstep, with a model that keeps to the tools it was given. -/
def HonestStep (g : Graph) (b : Bindings) (c : Config) (e : StepLog) (c' : Config) : Prop :=
  e.run.Honest ∧ Superstep g b c e c'

/-- Nothing is scheduled any more. -/
def Config.atEnd (c : Config) : Bool := c.next.isNone

/-- The first `n` supersteps of `AgentRoomService.run`, fed one world each, until nothing is
scheduled. -/
def Graph.runFor (g : Graph) (b : Bindings) (ω : ℕ → World) (c : Config) (n : ℕ) :
    Except NodeError (List StepLog × Config) :=
  Transition.drive (fun c w => g.superstep b w c) Config.atEnd ω c n

end AgentRoom
