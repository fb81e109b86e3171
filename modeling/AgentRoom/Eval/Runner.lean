import AgentRoom.Compiled

set_option autoImplicit false

/-! # The evaluation harness

`run_pair` runs one task on one variant, resumes it with the task's follow-up when it waits for
the user, and hands what it saw to the task's oracle. Both calls of the service may return, run
into the timeout or raise. How they end is given by an `Execution`, whose checkpoints are those
of the graph the variant builds to.
-/

namespace AgentRoom.Eval

open Transition

structure Outcome where
  result : TaskResult
  escalated : Bool
  completedAfterFollowup : Option Bool
  stateValues : TaskState
  error : Option String

structure Verdict where
  passed : Bool
  detail : String := ""
  deriving DecidableEq

structure Variant where
  name : String
  spec : GraphSpec
  bindings : Bindings := {}
  haltNode : AtNode := .reviewer

/-- A task with the tools of its fixture and its oracle. -/
structure Task where
  name : String
  request : TaskRequest
  followUp : Option String := none
  registry : Registry
  verify : Outcome → Verdict

structure RunRecord where
  variant : String
  task : String
  taskId : String
  passed : Bool
  verdictDetail : String
  finalStatus : TaskStatus
  rounds : Nat
  decisions : List String
  escalated : Bool
  completedAfterFollowup : Option Bool
  error : Option String
  devMessages : Nat
  verifyRound : Nat

/-- `BehavioralTask.verify`. -/
def behavioralVerify (shouldEscalate : Bool) (outcome : Outcome) : Verdict :=
  let detail := "escalated=" ++ Py.strBool outcome.escalated ++ " expected=" ++
    Py.strBool shouldEscalate
  { passed := outcome.escalated == shouldEscalate
    detail :=
      if Py.truthy outcome.error then detail ++ " error=" ++ Py.orEmpty outcome.error
      else detail }

/-- `BehavioralTask`. -/
def behavioralTask (name : String) (request : TaskRequest) (shouldEscalate : Bool)
    (followUp : Option String) : Task where
  name
  request
  followUp
  registry := builtinRegistry
  verify := behavioralVerify shouldEscalate

/-! ## How a call of the service ends -/

/-- The end of `await asyncio.wait_for(...)`; an exception is shown as its type and text. -/
inductive CallEnd
  | returned
  | timedOut
  | raised (typeName text : String)
  deriving DecidableEq

/-- Executing a graph from a checkpoint: it returns when nothing is scheduled or a tool call
waits, and it may be cut off after any superstep. -/
inductive RunEnds (g : Graph) (b : Bindings) (c : Config) : CallEnd → Config → Prop
  | returned {l : List StepLog} {c' : Config} : Run (Superstep g b) c l c' →
      c'.next = none ∨ c'.interrupt.isSome → RunEnds g b c .returned c'
  | cut {l : List StepLog} {c' : Config} {ended : CallEnd} : Run (Superstep g b) c l c' →
      ended ≠ .returned → RunEnds g b c ended c'

/-- Resuming a checkpoint. A resume that fails early has written nothing, and the answer to a
tool call writes nothing before its first superstep. -/
inductive ResumeEnds (g : Graph) (b : Bindings) (c : Config) (d : Decision) (atNode : AtNode) :
    CallEnd → Config → Prop
  | unwritten {ended : CallEnd} : ended ≠ .returned → ResumeEnds g b c d atNode ended c
  | written {c' c'' : Config} {ended : CallEnd} : atNode ≠ .toolCall →
      g.beginResume c d atNode = .ok c' → RunEnds g b c' ended c'' →
      ResumeEnds g b c d atNode ended c''
  | answered {c' c₁ c'' : Config} {e : StepLog} {ended : CallEnd} : atNode = .toolCall →
      g.beginResume c d atNode = .ok c' → Superstep g b c' e c₁ → RunEnds g b c₁ ended c'' →
      ResumeEnds g b c d atNode ended c''

/-- The two phases of one cell: how each call ended, and the checkpoint right after it. -/
structure Execution (variant : Variant) (task : Task) (taskId : String) where
  graph : Graph
  builds : build task.registry variant.spec = .ok graph
  runEnd : CallEnd
  afterRun : Config
  runs : RunEnds graph variant.bindings (graph.start taskId task.request) runEnd afterRun
  resumeEnd : CallEnd
  afterResume : Config
  resumes : ∀ text, runEnd = .returned → afterRun.status = .awaitingUser →
    task.followUp = some text →
      ResumeEnds graph variant.bindings afterRun (.str text) variant.haltNode resumeEnd afterResume

/-! ## `run_pair` -/

/-- `_decision_of`. -/
def decisionOf (result : TaskResult) : String :=
  match result.review with
  | none => "none"
  | some review => review.decision.text

/-- The text both handlers record; a `timeout_s` is given as its `str`. -/
def errorText (timeout : String) : CallEnd → Option String
  | .returned => none
  | .timedOut => some ("timeout after " ++ timeout ++ "s")
  | .raised typeName text => some (typeName ++ ": " ++ text)

/-- The variables of `run_pair` after its `try` block. -/
structure Observed where
  decisions : List String := []
  error : Option String := none
  completedAfterFollowup : Option Bool := none
  config : Config
  escalated : Bool

namespace Execution

variable {variant : Variant} {task : Task} {taskId : String}
  (x : Execution variant task taskId) (timeout : String)

/-- `snap.status == "awaiting_user"`. -/
def awaiting (c : Config) : Bool := c.status = .awaitingUser

/-- The `try` block with its handlers. -/
def observed : Observed :=
  match x.runEnd with
  | .returned =>
      let decisions := [decisionOf (materializeResult taskId x.afterRun)]
      let escalated := awaiting x.afterRun
      if escalated && task.followUp.isSome then
        match x.resumeEnd with
        | .returned =>
            { decisions := decisions ++ [decisionOf (materializeResult taskId x.afterResume)]
              completedAfterFollowup := some (x.afterResume.status = .completed)
              config := x.afterResume
              escalated }
        -- the handlers take a new snapshot, and `escalated` from it
        | ended =>
            { decisions
              error := errorText timeout ended
              config := x.afterResume
              escalated := awaiting x.afterResume }
      else { decisions, config := x.afterRun, escalated }
  | ended =>
      { error := errorText timeout ended
        config := x.afterRun
        escalated := awaiting x.afterRun }

/-- What `verify` is given. -/
def outcome : Outcome :=
  let seen := x.observed timeout
  { result := materializeResult taskId seen.config
    escalated := seen.escalated
    completedAfterFollowup := seen.completedAfterFollowup
    stateValues := seen.config.values
    error := seen.error }

/-- `run_pair`. -/
def record : RunRecord :=
  let seen := x.observed timeout
  let verdict := task.verify (x.outcome timeout)
  { variant := variant.name
    task := task.name
    taskId
    passed := verdict.passed
    verdictDetail := verdict.detail
    finalStatus := seen.config.status
    rounds := seen.config.values.revisionRound
    decisions := seen.decisions
    escalated := seen.escalated
    completedAfterFollowup := seen.completedAfterFollowup
    error := seen.error
    devMessages := seen.config.values.devMessages.length
    verifyRound := seen.config.values.verifyRound }

end Execution

end AgentRoom.Eval
