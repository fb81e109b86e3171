import AgentRoom.Schemas
import AgentRoom.Messages

set_option autoImplicit false

/-! # The workflow state and its reducers

`TaskState` is the single record every node reads. A node returns an `Update`, the partial
dict of the channels it writes; `TaskState.apply` merges it channel by channel, appending
where the channel is annotated with a reducer and overwriting elsewhere.
-/

namespace AgentRoom

/-- Ceiling on the length of `state.events`. -/
def eventsSoftCap : Nat := 500

/-- `merged[-cap:]`; a slice from `-0` is the whole list. -/
def sliceLast {α : Type*} (cap : Nat) (merged : List α) : List α :=
  if cap = 0 then merged else merged.drop (merged.length - cap)

/-- `capped_append cap`: append, then keep the most recent `cap` items. An absent operand
counts as empty. -/
def cappedAppend {α : Type*} (cap : Nat) (left right : Option (List α)) : List α :=
  let merged := left.getD [] ++ right.getD []
  if merged.length ≤ cap then merged else sliceLast cap merged

/-- The state of one task. A channel that nothing has written yet holds the value every
reader falls back to. -/
structure TaskState where
  taskId : String
  title : String
  description : String
  plan : Option String := none
  code : Option String := none
  review : Option ReviewerDecision := none
  delivery : Option String := none
  revisionRound : Nat := 0
  maxRevisions : Nat := 2
  artifacts : List Artifact := []
  events : List Event := []
  userDirectives : List String := []
  openQuestions : List String := []
  devMessages : List Message := []
  devRound : Nat := 0
  verifyCommand : Option String := none
  verifyFiles : List (String × String) := []
  verification : Option VerificationResult := none
  verifyRound : Nat := 0
  maxIterations : Nat := 10
  stuckDecision : Option StuckDecision := none

/-- A node's partial update. `none` is a key the node did not write; the appending channels
use the empty list for it. -/
structure Update where
  plan : Option String := none
  code : Option String := none
  review : Option (Option ReviewerDecision) := none
  delivery : Option String := none
  revisionRound : Option Nat := none
  artifacts : List Artifact := []
  events : List Event := []
  userDirectives : List String := []
  openQuestions : Option (List String) := none
  devMessages : List Message := []
  devRound : Option Nat := none
  verification : Option (Option VerificationResult) := none
  verifyRound : Option Nat := none
  stuckDecision : Option StuckDecision := none

namespace TaskState

/-- Merge a node's update into the state. -/
def apply (s : TaskState) (u : Update) : TaskState :=
  { s with
    plan := u.plan.or s.plan
    code := u.code.or s.code
    review := u.review.getD s.review
    delivery := u.delivery.or s.delivery
    revisionRound := u.revisionRound.getD s.revisionRound
    artifacts := s.artifacts ++ u.artifacts
    events := cappedAppend eventsSoftCap (some s.events) (some u.events)
    userDirectives := s.userDirectives ++ u.userDirectives
    openQuestions := u.openQuestions.getD s.openQuestions
    devMessages := s.devMessages ++ u.devMessages
    devRound := u.devRound.getD s.devRound
    verification := u.verification.getD s.verification
    verifyRound := u.verifyRound.getD s.verifyRound
    stuckDecision := u.stuckDecision.or s.stuckDecision }

section Fields

variable (s : TaskState) (u : Update)

@[simp] theorem apply_taskId : (s.apply u).taskId = s.taskId := rfl
@[simp] theorem apply_title : (s.apply u).title = s.title := rfl
@[simp] theorem apply_description : (s.apply u).description = s.description := rfl
@[simp] theorem apply_plan : (s.apply u).plan = u.plan.or s.plan := rfl
@[simp] theorem apply_code : (s.apply u).code = u.code.or s.code := rfl
@[simp] theorem apply_review : (s.apply u).review = u.review.getD s.review := rfl
@[simp] theorem apply_delivery : (s.apply u).delivery = u.delivery.or s.delivery := rfl
@[simp] theorem apply_revisionRound :
    (s.apply u).revisionRound = u.revisionRound.getD s.revisionRound := rfl
@[simp] theorem apply_maxRevisions : (s.apply u).maxRevisions = s.maxRevisions := rfl
@[simp] theorem apply_userDirectives :
    (s.apply u).userDirectives = s.userDirectives ++ u.userDirectives := rfl
@[simp] theorem apply_openQuestions :
    (s.apply u).openQuestions = u.openQuestions.getD s.openQuestions := rfl
@[simp] theorem apply_devMessages :
    (s.apply u).devMessages = s.devMessages ++ u.devMessages := rfl
@[simp] theorem apply_devRound : (s.apply u).devRound = u.devRound.getD s.devRound := rfl
@[simp] theorem apply_verifyCommand : (s.apply u).verifyCommand = s.verifyCommand := rfl
@[simp] theorem apply_verifyFiles : (s.apply u).verifyFiles = s.verifyFiles := rfl
@[simp] theorem apply_verification :
    (s.apply u).verification = u.verification.getD s.verification := rfl
@[simp] theorem apply_verifyRound :
    (s.apply u).verifyRound = u.verifyRound.getD s.verifyRound := rfl
@[simp] theorem apply_maxIterations : (s.apply u).maxIterations = s.maxIterations := rfl
@[simp] theorem apply_stuckDecision :
    (s.apply u).stuckDecision = u.stuckDecision.or s.stuckDecision := rfl

end Fields

end TaskState

end AgentRoom
