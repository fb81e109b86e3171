import AgentRoom.World
import AgentRoom.Prompt.Developer

set_option autoImplicit false

/-! # The reviewer and its two-call variant -/

namespace AgentRoom

/-- The reviewer's human message. -/
def reviewerPrompt (extraContextKeys : List ContextKey) (s : TaskState) : String :=
  let extra := formatExtraContext s extraContextKeys
  Py.join "\n"
    (["# Title\n" ++ s.title, "\n# Description\n" ++ s.description,
      "\n# Plan\n" ++ Py.strOpt s.plan, "\n# Code\n" ++ Py.strOpt s.code] ++
      (if s.userDirectives = [] then []
        else ["\n# User directives (must be visibly applied; flag any gap)\n" ++
          bullets s.userDirectives]) ++
      (if extra = "" then [] else ["\n" ++ extra]) ++
      ["\nReview round: " ++ toString s.revisionRound ++ "\nMax revisions allowed: " ++
        toString s.maxRevisions])

/-- `reviewer`. Feedback for a tool-using developer is pushed into its transcript, with a
fresh tool budget. -/
def reviewer (systemPrompt : String) (extraContextKeys : List ContextKey) (w : World)
    (s : TaskState) : NodeRun :=
  let msgs := [.system systemPrompt, .human (reviewerPrompt extraContextKeys s)]
  let decision := w.review
  let update : Update :=
    { review := some (some decision)
      revisionRound := some (s.revisionRound + 1)
      artifacts := [{ kind := .review, role := .reviewer, content := decision.feedback
                      round := s.revisionRound, extra := decision.modelDump }]
      events := [{ type := "reviewer_completed", role := some .reviewer
                   round := some s.revisionRound
                   payload := [("decision", .str decision.decision.text)] }] }
  { calls := [structuredCall .reviewer msgs]
    update :=
      -- a developer without tools reads the review from the state instead
      if decision.decision = .revisionRequired ∧ s.devMessages ≠ [] then
        { update with
          devMessages := [.human (renderReviewFeedbackBlock decision s.revisionRound)]
          devRound := some 0 }
      else update }

/-- The confidence of a focus-check escalation:
`max(0.7, min(1.0, 1.0 - 0.05 * len(open_questions)))`. -/
def focusConfidence (questions : Nat) : ℚ := max (7 / 10) (min 1 (1 - questions / 20))

theorem focusConfidence_nonneg (n : Nat) : 0 ≤ focusConfidence n :=
  le_trans (by norm_num) (le_max_left _ _)

theorem focusConfidence_le_one (n : Nat) : focusConfidence n ≤ 1 :=
  max_le (by norm_num) (min_le_left _ _)

/-- The review the focus check writes when it escalates. -/
def focusReview (openQuestions : List String) : ReviewerDecision :=
  { decision := .needUserDecision
    feedback := "Focus check flagged open questions:\n" ++ bullets openQuestions
    issues := openQuestions
    confidence := focusConfidence openQuestions.length
    confidence_nonneg := focusConfidence_nonneg _
    confidence_le_one := focusConfidence_le_one _ }

/-- The focus check stops the review: under-specified, with questions, and no directive
given yet. -/
def focusEscalates (check : FocusCheck) (s : TaskState) : Bool :=
  !check.isFullySpecified && !check.openQuestions.isEmpty && s.userDirectives.isEmpty

/-- `reviewer_two_call`. Unlike `reviewer` it never writes to a transcript. -/
def reviewerTwoCall (reviewPrompt : String) (extraContextKeys : List ContextKey) (w : World)
    (s : TaskState) : NodeRun :=
  let human := Message.human (reviewerPrompt extraContextKeys s)
  let check := w.focus
  let focusCall := structuredCall .reviewer [.system focusCheckSystem, human]
  if focusEscalates check s then
    -- the second call is saved, the round is counted all the same
    let decision := focusReview check.openQuestions
    { calls := [focusCall]
      update :=
        { review := some (some decision)
          revisionRound := some (s.revisionRound + 1)
          openQuestions := some check.openQuestions
          artifacts := [{ kind := .review, role := .reviewer, content := decision.feedback
                          round := s.revisionRound
                          extra := ("focus_check", .dict check.modelDump) ::
                            decision.modelDump }]
          events := [{ type := "reviewer_focus_check_escalated", role := some .reviewer
                       round := some s.revisionRound
                       payload := [("questions", strList check.openQuestions)] }] } }
  else
    let decision := w.review
    { calls := [focusCall, structuredCall .reviewer [.system reviewPrompt, human]]
      update :=
        { review := some (some decision)
          revisionRound := some (s.revisionRound + 1)
          openQuestions := some []
          artifacts := [{ kind := .review, role := .reviewer, content := decision.feedback
                          round := s.revisionRound
                          extra := ("focus_check", .dict check.modelDump) ::
                            decision.modelDump }]
          events := [{ type := "reviewer_completed", role := some .reviewer
                       round := some s.revisionRound
                       payload := [("decision", .str decision.decision.text),
                         ("two_call", .bool true)] }] } }

end AgentRoom
