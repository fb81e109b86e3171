import AgentRoom.World
import AgentRoom.Prompt.Developer

set_option autoImplicit false

/-! # The planner and its gate variant -/

namespace AgentRoom

/-- The planner's human message: the request, the extra context, and on a re-plan the plan
that failed with the failure it led to. -/
def plannerPrompt (extraContextKeys : List ContextKey) (s : TaskState) : String :=
  let extra := formatExtraContext s extraContextKeys
  let replan : List String :=
    match s.verification with
    | some v =>
        if !v.passed && Py.truthy s.plan then
          ["# Previous plan (did not reach the goal)\n" ++ Py.orEmpty s.plan ++
            "\n\n# Latest verification failure (round " ++ toString v.round ++ ")\n" ++
            v.outputTail ++
            "\n\nProduce a REVISED plan that takes a different approach to the " ++
            "part that keeps failing."]
        else []
    | none => []
  Py.join "\n\n"
    (["Title: " ++ s.title ++ "\n\nDescription:\n" ++ s.description] ++
      (if extra = "" then [] else [extra]) ++ replan)

/-- `planner`. A revised plan is pushed into a running transcript, with a fresh tool budget. -/
def planner (systemPrompt : String) (extraContextKeys : List ContextKey) (w : World)
    (s : TaskState) : NodeRun :=
  let msgs := [.system systemPrompt, .human (plannerPrompt extraContextKeys s)]
  let plan := w.message.content.extractText
  let update : Update :=
    { plan := some plan
      artifacts := [{ kind := .plan, role := .planner, content := plan }]
      events := [{ type := "planner_completed", role := some .planner }] }
  { calls := [invoked .planner msgs w.message]
    update :=
      -- the running transcript is all the developer will read
      if s.devMessages = [] then update
      else { update with
        devMessages := [.human ("# Revised plan\n" ++ plan)]
        devRound := some 0 } }

/-- The gate's human message. -/
def plannerGatePrompt (extraContextKeys : List ContextKey) (s : TaskState) : String :=
  let extra := formatExtraContext s extraContextKeys
  Py.join "\n\n"
    (["Title: " ++ s.title ++ "\n\nDescription:\n" ++ s.description] ++
      (if s.userDirectives = [] then []
        else ["# User directives (already provided)\n" ++ bullets s.userDirectives]) ++
      (if extra = "" then [] else [extra]))

/-- The review the gate writes to park the run. -/
def gateReview (openQuestions : List String) : ReviewerDecision :=
  { decision := .needUserDecision
    feedback := "Planner gate flagged open questions:\n" ++ bullets openQuestions
    issues := openQuestions
    confidence := 1
    confidence_nonneg := fullConfidence_nonneg
    confidence_le_one := fullConfidence_le_one }

/-- `planner_gate`. -/
def plannerGate (systemPrompt : String) (extraContextKeys : List ContextKey) (w : World)
    (s : TaskState) : NodeRun :=
  let msgs := [.system systemPrompt, .human (plannerGatePrompt extraContextKeys s)]
  let result := w.gate
  let completed : Event :=
    { type := "planner_completed", role := some .planner
      payload := [("open_questions", .int result.openQuestions.length)] }
  let update : Update :=
    { plan := some result.plan
      openQuestions := some result.openQuestions
      artifacts := [{ kind := .plan, role := .planner, content := result.plan
                      extra := result.modelDump }]
      events := [completed] }
  { calls := [structuredCall .planner msgs]
    update :=
      -- the questions park the run through the review, as a reviewer would
      if result.openQuestions = [] then update
      else { update with
        review := some (some (gateReview result.openQuestions))
        events := [completed,
          { type := "planner_gate_escalated", role := some .planner
            payload := [("questions", strList result.openQuestions)] }] } }

end AgentRoom
