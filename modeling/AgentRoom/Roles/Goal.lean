import AgentRoom.World
import AgentRoom.Prompt.Texts

set_option autoImplicit false

/-! # Goal mode: the verifier and the supervisor -/

namespace AgentRoom

/-- `OUTPUT_TAIL_CHARS`. -/
def outputTailChars : Nat := 2000

/-- `_run_verify_command`: how the attempt ended becomes a result. An attempt that raises has no
outcome; the node raises with it. -/
def runVerifyCommand (outcome : OracleOutcome) (roundNo : Nat) : VerificationResult :=
  match outcome with
  | .rejected reason =>
      { passed := false, outputTail := "verify_command rejected: " ++ reason, round := roundNo }
  | .failedToStart reason =>
      { passed := false, outputTail := "verify_command failed to start: " ++ reason
        round := roundNo }
  | .timedOut argv =>
      { passed := false
        outputTail := "verify_command timed out after 60.0s (" ++ argv ++ ")"
        round := roundNo }
  | .exited returncode stdout =>
      { passed := returncode == 0, exitCode := some returncode
        outputTail := Py.lastChars outputTailChars (Py.strip stdout), round := roundNo }

/-- The message a failed verification pushes into a running transcript. -/
def verificationFailedMessage (result : VerificationResult) (roundNo : Nat) : Message :=
  .human ("# Verification failed (round " ++ toString roundNo ++ ", exit=" ++
    Py.strOptInt result.exitCode ++ ")\n" ++ result.outputTail ++ fixGuidance)

/-- `verifier`. Without a command nothing is run and the round does not count. -/
def verifier (w : World) (s : TaskState) : NodeRun :=
  if Py.truthy s.verifyCommand then
    let roundNo := s.verifyRound + 1
    let result := runVerifyCommand w.oracle roundNo
    let update : Update :=
      { verification := some (some result)
        verifyRound := some roundNo
        events := [{ type := "verification_completed", role := some .verifier
                     round := some roundNo
                     payload := [("passed", .bool result.passed),
                       ("exit_code", match result.exitCode with
                         | some n => .int n
                         | none => .none)] }] }
    { update :=
        -- the failure is told to a running transcript only; a prompt would render it anew
        if !result.passed && !s.devMessages.isEmpty then
          { update with
            devMessages := [verificationFailedMessage result roundNo]
            devRound := some 0 }
        else update }
  -- no objective oracle: the reviewer will judge instead
  else { update := { verification := some none } }

/-- The supervisor's human message. -/
def supervisorPrompt (s : TaskState) : String :=
  let failure :=
    match s.verification with
    | some v => "round " ++ toString v.round ++ ", exit=" ++ Py.strOptInt v.exitCode ++ "\n" ++
        v.outputTail
    | none => "(no verification record)"
  Py.join "\n"
    ["# Goal\n" ++ s.title ++ "\n" ++ s.description,
      "\n# Current plan\n" ++ (if Py.truthy s.plan then Py.orEmpty s.plan else "(none)"),
      "\n# Consecutive failed verifications\n" ++ toString s.verifyRound ++ " of max " ++
        toString s.maxIterations,
      "\n# Latest failure\n" ++ failure]

/-- The review the supervisor writes to park the run. -/
def askUserReview (decision : StuckDecision) : ReviewerDecision :=
  { decision := .needUserDecision
    feedback := if decision.question = "" then decision.reasoning else decision.question }

/-- `supervisor`. -/
def supervisor (systemPrompt : String) (w : World) (s : TaskState) : NodeRun :=
  let decision := w.stuck
  { calls := [structuredCall .supervisor [.system systemPrompt, .human (supervisorPrompt s)]]
    update :=
      { stuckDecision := some decision
        events := [{ type := "supervisor_decided", role := some .supervisor
                     round := some s.verifyRound
                     payload := [("action", .str decision.action.text),
                       ("reasoning", .str decision.reasoning)] }]
        review :=
          if decision.action = .askUser then some (some (askUserReview decision)) else none } }

end AgentRoom
