import AgentRoom.Realization

set_option autoImplicit false

/-! # Goal mode delivers verified work only

With a verify command, the goal graph reaches the delivery through the oracle alone: the
reviewer, whose approval is the other way in, is never scheduled, and no resume writes an
approval. Histories may resume the task anywhere.
-/

namespace AgentRoom

open Transition

/-- The oracle is on, and nothing else can lead to a delivery. -/
structure Control.OracleGuards (c : Control) : Prop where
  hasOracle : c.hasOracle = true
  not_approved : c.review ≠ some .approved
  not_reviewer : c.next ≠ some .reviewer

namespace Control.OracleGuards

/-- A task with a verify command starts under its guard. -/
theorem start {tools : List Tool} {approval : Bool} {taskId : String} {req : TaskRequest}
    (hcmd : Py.truthy req.verifyCommand = true) :
    ((Preset.goal.compiled tools approval).start taskId req).control.OracleGuards := by
  rw [Preset.start_control]
  exact ⟨hcmd, by simp, by simp [Preset.delivers]⟩

theorem step {c : Control} (h : c.OracleGuards) (x : Choice) :
    (c.step .goal x).OracleGuards := by
  have hout := Control.outcome_step .goal x c
  generalize c.step .goal x = c' at hout ⊢
  obtain ⟨ho, ha, hr⟩ := h
  cases hout with
  | idle _ => exact ⟨ho, ha, hr⟩
  | planned _ => exact ⟨ho, ha, by simp⟩
  | gated _ hgate _ => cases hgate
  | toolCall _ _ _ => exact ⟨ho, ha, by simp⟩
  | developed _ => exact ⟨ho, ha, by simp [Preset.afterDeveloper]⟩
  | unverified _ hoff =>
      rw [ho] at hoff
      cases hoff
  | passed _ _ _ | lastFailure _ _ _ _ | stuck _ _ _ _ _ | failed _ _ _ _ _ =>
      exact ⟨by simpa using ho, by simpa using ha, by simp⟩
  | carriedOn _ hact | replanned _ hact =>
      exact ⟨ho, by simpa [Ledger.supervisor, hact] using ha, by simp⟩
  | halted _ _ =>
      -- asking the user overwrites the review, and not with an approval
      refine ⟨ho, ?_, by simp⟩
      simp only [Ledger.supervisor, Ledger.goto_toLedger]
      split
      · simp
      · exact ha
  | approved hn _ | escalated hn _ | exhausted hn _ _ | sentBack hn _ _ => exact absurd hn hr
  | delivered _ => exact ⟨ho, ha, by simp⟩
  | interrupted _ _ => exact ⟨ho, ha, hr⟩
  | toolsRan _ _ => exact ⟨ho, ha, by simp⟩

theorem resumeReviewer {c : Control} (h : c.OracleGuards) :
    (c.resumeReviewer .goal).OracleGuards := by
  refine ⟨h.hasOracle, by simp [Control.resumeReviewer], ?_⟩
  simp only [Control.resumeReviewer, Ledger.goto_next, Ledger.afterReview]
  split_ifs <;> simp

theorem resumePlanner {c : Control} (h : c.OracleGuards) :
    (c.resumePlanner .goal).OracleGuards :=
  ⟨h.hasOracle, by simp [Control.resumePlanner], by
    simp [Control.resumePlanner, Ledger.afterPlanner]⟩

/-- **Only a passed verification schedules the delivery.** -/
theorem of_next_delivery {c : Control} (h : c.OracleGuards) {x : Choice}
    (hd : (c.step .goal x).next = some .delivery) (hne : c.next ≠ some .delivery) :
    c.next = some .verify ∧ x.passes = true := by
  have hout := Control.outcome_step .goal x c
  generalize c.step .goal x = c' at hout hd
  obtain ⟨-, -, hr⟩ := h
  cases hout with
  | passed hn _ hpass => exact ⟨hn, hpass⟩
  | approved hn _ => exact absurd hn hr
  | idle _ | interrupted _ _ => exact absurd hd hne
  | developed _ => simp [Preset.afterDeveloper] at hd
  | planned _ | gated _ _ _ | toolCall _ _ _ | unverified _ _ | lastFailure _ _ _ _
  | stuck _ _ _ _ _ | failed _ _ _ _ _ | carriedOn _ _ | replanned _ _ | halted _ _
  | escalated _ _ | exhausted _ _ _ | sentBack _ _ _ | delivered _ | toolsRan _ _ =>
      -- no other outcome schedules the delivery
      simp at hd

end Control.OracleGuards

/-- A run of the oracle that recorded a pass. -/
def StepLog.PassedVerification (e : StepLog) : Prop :=
  e.node = .verify ∧ ∃ r, e.run.update.verification = some (some r) ∧ r.passed = true

/-- A verify superstep whose choice passes has recorded the pass. -/
theorem StepLog.passedVerification_of_choice {e : StepLog} (hn : e.node = .verify)
    (hx : e.run.choice.passes = true) : e.PassedVerification := by
  refine ⟨hn, ?_⟩
  simp only [NodeRun.choice] at hx
  rcases hv : e.run.update.verification with _ | _ | r
  · simp [hv] at hx
  · simp [hv] at hx
  · exact ⟨r, rfl, by simpa [hv] using hx⟩

theorem StepLog.PassedVerification.choice_passes {e : StepLog} (h : e.PassedVerification) :
    e.run.choice.passes = true := by
  obtain ⟨-, r, hr, hp⟩ := h
  simp [NodeRun.choice, hr, hp]

/-- The delivery, as far as it has been scheduled or executed, rests on a passed verification. -/
theorem goal_history_verified {tools : List Tool} {approval : Bool} {b : Bindings}
    {c c' : Config} {h : List Action} (hc : c.control.OracleGuards)
    (hn : c.next ≠ some .delivery)
    (hrun : Run (ServiceStep (Preset.goal.compiled tools approval) b) c h c') :
    c'.control.OracleGuards ∧
      PrecededBy (fun e => e.node = .delivery) StepLog.PassedVerification (executed h) ∧
      (c'.next = some .delivery →
        ∃ v, (executed h).getLast? = some v ∧ v.PassedVerification) := by
  refine hrun.log_invariant (P := fun h c => c.control.OracleGuards ∧
    PrecededBy (fun e => e.node = .delivery) StepLog.PassedVerification (executed h) ∧
    (c.next = some .delivery → ∃ v, (executed h).getLast? = some v ∧ v.PassedVerification))
    ?_ ⟨hc, .nil, fun hd => absurd hd hn⟩
  rintro h c a c' ⟨hg, hpre, hlast⟩ hs
  cases Preset.serviceStep_served hs with
  | @superstep w e _ hstep hc' =>
      have hsched : c.control.next = some e.node := Graph.superstep_node hstep
      have hpre' : PrecededBy (fun e => e.node = .delivery) StepLog.PassedVerification
          (executed h ++ [e]) :=
        hpre.snoc (fun he => hlast (hsched.trans (congrArg some he)))
      refine ⟨hc' ▸ hg.step _, by simpa using hpre', fun hd => ?_⟩
      -- the delivery has just been scheduled: by the node this superstep executed
      have hd' : (c.control.step .goal e.run.choice).next = some .delivery := by
        rw [← hc']
        exact hd
      have hne : c.control.next ≠ some .delivery := by
        intro hdel
        rw [Control.step_delivery hdel] at hd'
        cases hd'
      obtain ⟨hv, hx⟩ := hg.of_next_delivery hd' hne
      have hverify : e.node = .verify := Option.some.inj (hsched.symm.trans hv)
      exact ⟨e, by simp, e.passedVerification_of_choice hverify hx⟩
  | atReviewer _ _ hc' =>
      refine ⟨hc' ▸ hg.resumeReviewer, by simpa using hpre, fun hd => ?_⟩
      have hd' : (c.control.resumeReviewer .goal).next = some .delivery := hc' ▸ hd
      simp only [Control.resumeReviewer, Ledger.goto, Ledger.afterReview] at hd'
      split_ifs at hd'
      cases hd'
  | atPlanner _ _ hc' =>
      refine ⟨hc' ▸ hg.resumePlanner, by simpa using hpre, fun hd => ?_⟩
      have hd' : (c.control.resumePlanner .goal).next = some .delivery := hc' ▸ hd
      simp [Control.resumePlanner, Ledger.goto, Ledger.afterPlanner] at hd'
  | atToolCall _ _ hnext hc' =>
      refine ⟨hc' ▸ ⟨hg.hasOracle, hg.not_approved, hg.not_reviewer⟩, by simpa using hpre, ?_⟩
      rw [hnext]
      simpa using hlast

/-- **Goal mode ships verified work only.** In every history of a task with a verify command
on the goal graph, each delivery comes right after a run of the oracle that recorded a pass,
and it is scheduled only right after one. -/
theorem goal_delivery_after_passed_verification {b : Bindings} {taskId : String}
    {req : TaskRequest} {h : List Action} {c : Config}
    (hcmd : Py.truthy req.verifyCommand = true)
    (hrun : Run (ServiceStep Preset.goal.graph b) (Preset.goal.graph.start taskId req) h c) :
    PrecededBy (fun e => e.node = .delivery) StepLog.PassedVerification (executed h) ∧
      (c.next = some .delivery →
        ∃ v, (executed h).getLast? = some v ∧ v.PassedVerification) := by
  rw [Preset.graph_eq] at hrun
  exact (goal_history_verified (.start hcmd)
    (by simp [Graph.start, Preset.compiled, Preset.delivers]) hrun).2

/-- A task with a verify command that is planned, developed, verified and delivered. -/
theorem goal_delivery_after_passed_verification_delivered :
    ∃ h : List Action, (executed h).map StepLog.node = [.planner, .developer, .verify, .delivery] ∧
      PrecededBy (fun e => e.node = .delivery) StepLog.PassedVerification (executed h) := by
  let req : TaskRequest := { title := "t", description := "d", verifyCommand := some "make" }
  have hplay : ((Preset.goal.compiled Preset.builtinDevTools false).start "id" req).control.play
      .goal [.node {}, .node {}, .node { passes := true }, .node {}]
        = some ([.planner, .developer, .verify, .delivery], _) := rfl
  obtain ⟨h, c, hrun, -, hnodes⟩ := Preset.exists_history (by decide) hplay
  rw [← Preset.graph_eq] at hrun
  exact ⟨h, hnodes, (goal_delivery_after_passed_verification (by decide) hrun).1⟩

end AgentRoom
