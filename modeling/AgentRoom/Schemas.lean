import AgentRoom.Py
import Mathlib.Tactic.NormNum
import Mathlib.Data.Rat.Cast.Order

set_option autoImplicit false

/-! # Task requests, decisions, artifacts and events

The typed contracts of the program. The bounds a model validator enforces are fields, so a
request or a decision out of range cannot be built. Time stamps are left out.
-/

namespace AgentRoom

inductive Role
  | planner | developer | reviewer | delivery | verifier | supervisor
  deriving DecidableEq, Repr

/-- The reviewer's three answers. -/
inductive ReviewDecision
  | approved | revisionRequired | needUserDecision
  deriving DecidableEq, Repr

/-- The supervisor's four strategies. -/
inductive StuckAction
  | continue | replan | askUser | abort
  deriving DecidableEq, Repr

namespace Role

def text : Role → String
  | planner => "planner"
  | developer => "developer"
  | reviewer => "reviewer"
  | delivery => "delivery"
  | verifier => "verifier"
  | supervisor => "supervisor"

end Role

def ReviewDecision.text : ReviewDecision → String
  | approved => "approved"
  | revisionRequired => "revision_required"
  | needUserDecision => "need_user_decision"

def StuckAction.text : StuckAction → String
  | .continue => "continue"
  | .replan => "replan"
  | .askUser => "ask_user"
  | .abort => "abort"

/-! Every default passes its own check. -/

theorem defaultRevisions_le : 2 ≤ 10 := by decide

theorem one_le_defaultIterations : 1 ≤ 10 := by decide

theorem defaultIterations_le : 10 ≤ 50 := by decide

theorem defaultConfidence_nonneg : (0 : ℚ) ≤ 4 / 5 := by norm_num

theorem defaultConfidence_le_one : (4 / 5 : ℚ) ≤ 1 := by norm_num

theorem fullConfidence_nonneg : (0 : ℚ) ≤ 1 := by norm_num

theorem fullConfidence_le_one : (1 : ℚ) ≤ 1 := by norm_num

/-- A task as the API accepts it: `max_revisions` in `0..10`, `max_iterations` in `1..50`. -/
structure TaskRequest where
  title : String
  description : String
  maxRevisions : Nat := 2
  tenantId : String := "default"
  verifyCommand : Option String := none
  verifyFiles : List (String × String) := []
  maxIterations : Nat := 10
  graph : Option String := none
  maxRevisions_le : maxRevisions ≤ 10 := by first | exact defaultRevisions_le | decide
  one_le_maxIterations : 1 ≤ maxIterations := by first | exact one_le_defaultIterations | decide
  maxIterations_le : maxIterations ≤ 50 := by first | exact defaultIterations_le | decide

/-- The outcome of one run of the oracle. -/
structure VerificationResult where
  passed : Bool
  exitCode : Option Int := none
  outputTail : String := ""
  round : Nat := 0

structure StuckDecision where
  action : StuckAction
  reasoning : String
  question : String := ""

/-- The strict reviewer protocol. -/
structure ReviewerDecision where
  decision : ReviewDecision
  feedback : String
  issues : List String := []
  confidence : ℚ := 4 / 5
  confidence_nonneg : 0 ≤ confidence := by first | exact defaultConfidence_nonneg | norm_num
  confidence_le_one : confidence ≤ 1 := by first | exact defaultConfidence_le_one | norm_num

structure PlannerGateOutput where
  plan : String
  openQuestions : List String := []
  rationale : String := ""

structure FocusCheck where
  isFullySpecified : Bool
  openQuestions : List String := []
  rationale : String := ""

inductive ArtifactKind
  | plan | code | review | delivery
  deriving DecidableEq, Repr

structure Artifact where
  kind : ArtifactKind
  role : Role
  content : String
  round : Nat := 0
  extra : List (String × Value) := []

/-- The light audit record kept beside the artifacts. -/
structure Event where
  type : String
  role : Option Role := none
  round : Option Nat := none
  payload : List (String × Value) := []

inductive TaskStatus
  | completed | failed | awaitingUser | running
  deriving DecidableEq, Repr

/-! ## `model_dump` -/

def strList (xs : List String) : Value := .list (xs.map .str)

def ReviewerDecision.modelDump (d : ReviewerDecision) : List (String × Value) :=
  [("decision", .str d.decision.text), ("feedback", .str d.feedback),
    ("issues", strList d.issues), ("confidence", .float d.confidence)]

def PlannerGateOutput.modelDump (o : PlannerGateOutput) : List (String × Value) :=
  [("plan", .str o.plan), ("open_questions", strList o.openQuestions),
    ("rationale", .str o.rationale)]

def FocusCheck.modelDump (o : FocusCheck) : List (String × Value) :=
  [("is_fully_specified", .bool o.isFullySpecified),
    ("open_questions", strList o.openQuestions), ("rationale", .str o.rationale)]

end AgentRoom
