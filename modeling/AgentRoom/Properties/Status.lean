import AgentRoom.Realization

set_option autoImplicit false

/-! # What the status says

The status is not stored: `_materialize_status` reads it off a few channels. Two laws are
stated about it here, each with the steps of a history that break it: a finished run is not
`running`, and `completed` reflects the last verdict.
-/

namespace AgentRoom

open Transition

/-! ## A finished run is not running -/

/-- The steps that keep the first law. The delivery writes a text, unless the supervisor has
aborted before; a planner gate leaves a plan or a question; and its resume finds a plan,
unless the task was delivered before. -/
def Conclusive (p : Preset) (c : Config) : Action → Prop
  | .superstep e =>
      (e.node = .delivery → Py.truthy e.run.update.delivery = true ∨
        c.values.stuckDecision.map StuckDecision.action = some .abort) ∧
      (p = .plannerGate → e.node = .planner → Py.truthy e.run.update.plan = true ∨
        e.run.update.openQuestions.getD [] ≠ [])
  | .resumed _ atNode =>
      p = .plannerGate → atNode = .planner →
        Py.truthy c.values.plan = true ∨ Py.truthy c.values.delivery = true

namespace Control

/-- Nothing is scheduled only in a state whose status says so. -/
def Concluded (c : Control) : Prop := c.next = none → c.toLedger.status false ≠ .running

end Control

namespace Ledger

variable {l : Ledger}

/-- The signals `_materialize_status` reads a conclusion from. -/
theorem status_ne_running (h : l.delivered = true ∨ l.review = some .needUserDecision ∨
    (l.review = some .revisionRequired ∧ l.maxRevisions < l.revisionRound) ∨
    l.stuck = some .abort ∨
    (l.verification = some false ∧ l.maxIterations ≤ l.verifyRound)) :
    l.status false ≠ .running := by
  unfold status
  split_ifs <;> simp_all

end Ledger

namespace Control.Concluded

theorem goto_some {l : Ledger} {n : NodeName} : (l.goto (some n)).Concluded := by
  intro h
  cases h

theorem step {p : Preset} (hp : p.delivers = true) {c : Control} (h : c.Concluded) {x : Choice}
    (hdelivery : c.next = some .delivery → x.delivers = true ∨ c.stuck = some .abort)
    (hgate : p = .plannerGate → c.next = some .planner → x.plans = true ∨ x.asks = true) :
    (c.step p x).Concluded := by
  have hout := Control.outcome_step p x c
  generalize c.step p x = c' at hout ⊢
  cases hout with
  | idle _ => exact h
  | planned _ | toolCall _ _ _ | unverified _ _ | passed _ _ _ | stuck _ _ _ _ _
  | failed _ _ _ _ _ | carriedOn _ _ | replanned _ _ | sentBack _ _ _ | toolsRan _ _ =>
      exact goto_some
  | gated hn hg hend =>
      subst hg
      -- a gate with a plan and no questions halts only on a review that asks the user
      refine fun _ => Ledger.status_ne_running (.inr (.inl ?_))
      cases ha : x.asks with
      | true => simp [Ledger.planner, ha]
      | false =>
          have hplan : x.plans = true := by simpa [ha] using hgate rfl hn
          by_contra hr
          simp [Ledger.afterPlanner, Ledger.planner, ha, hplan] at hend hr
          exact hr hend
  | developed _ =>
      have hafter : p.afterDeveloper ≠ none := by
        cases p with
        | solo => cases hp
        | _ => simp [Preset.afterDeveloper]
      exact fun hend => absurd hend hafter
  | lastFailure _ ho hfail hlast =>
      refine fun _ => Ledger.status_ne_running (.inr (.inr (.inr (.inr ?_))))
      rw [Ledger.goto_toLedger, Ledger.verify_of_hasOracle ho]
      exact ⟨congrArg some hfail, hlast⟩
  | halted _ hact =>
      intro _
      rcases hact with ha | ha
      · exact Ledger.status_ne_running (.inr (.inl (by simp [Ledger.supervisor, ha])))
      · exact Ledger.status_ne_running
          (.inr (.inr (.inr (.inl (by simp [Ledger.supervisor, ha])))))
  | approved _ _ =>
      rw [if_pos hp]
      exact goto_some
  | escalated _ hv =>
      exact fun _ => Ledger.status_ne_running (.inr (.inl (by simp [Ledger.reviewer, hv])))
  | exhausted _ hv hmax =>
      refine fun _ => Ledger.status_ne_running (.inr (.inr (.inl ⟨?_, hmax⟩)))
      simp [Ledger.reviewer, hv]
  | delivered hn =>
      intro _
      rcases hdelivery hn with hx | hs
      · exact Ledger.status_ne_running (.inl hx)
      · exact Ledger.status_ne_running (.inr (.inr (.inr (.inl hs))))
  | interrupted hn _ =>
      intro hend
      rw [hn] at hend
      cases hend

/-- A resume at the reviewer halts only when the review rounds are used up. -/
theorem resumeReviewer (p : Preset) (c : Control) : (c.resumeReviewer p).Concluded := by
  intro hend
  refine Ledger.status_ne_running (.inr (.inr (.inl ⟨rfl, ?_⟩)))
  simpa [Control.resumeReviewer, Ledger.afterReview] using hend

/-- A resume at the planner halts only at a gate without a plan. -/
theorem resumePlanner {p : Preset} {c : Control}
    (h : p = .plannerGate → c.planned = true ∨ c.delivered = true) :
    (c.resumePlanner p).Concluded := by
  intro hend
  have hgate : p = .plannerGate ∧ c.planned = false := by
    simpa [Control.resumePlanner, Ledger.afterPlanner] using hend
  have hdelivered : c.delivered = true := by simpa [hgate.2] using h hgate.1
  exact Ledger.status_ne_running (.inl hdelivered)

end Control.Concluded

/-- **A finished run is not running.** In a history whose steps are conclusive, whenever
nothing is scheduled and no tool call is pending, the status is `completed`, `failed` or
`awaiting_user`. -/
theorem finished_not_running {p : Preset} (hp : p.delivers = true) {b : Bindings}
    {taskId : String} {req : TaskRequest} {h : List Action} {c : Config}
    (hrun : Run (fun c a c' => ServiceStep p.graph b c a c' ∧ Conclusive p c a)
      (p.graph.start taskId req) h c)
    (hend : c.next = none) (hint : c.interrupt = none) : c.status ≠ .running := by
  rw [Preset.graph_eq] at hrun
  have hconcluded : c.control.Concluded := by
    refine hrun.invariant (P := fun c => c.control.Concluded) ?_ (fun hn => by cases hn)
    rintro c a c' hc ⟨hs, hcond⟩
    cases Preset.serviceStep_served hs with
    | @superstep w e _ hstep hc' =>
        obtain ⟨hdelivery, hgate⟩ := hcond
        have hnode : c.control.next = some e.node := Graph.superstep_node hstep
        rw [hc']
        refine hc.step hp (fun hn => hdelivery ?_) (fun hg hn => ?_)
        · exact Option.some.inj (hnode.symm.trans hn)
        · refine (hgate hg (Option.some.inj (hnode.symm.trans hn))).imp_right ?_
          intro hq
          simpa [NodeRun.choice] using hq
    | atReviewer _ _ hc' =>
        rw [hc']
        exact .resumeReviewer p _
    | atPlanner _ _ hc' =>
        rw [hc']
        exact .resumePlanner (fun hg => hcond hg rfl)
    | atToolCall _ _ _ hc' =>
        rw [hc']
        exact hc
  have hstatus := hconcluded hend
  rw [Config.status_eq]
  simpa [Control.status, Config.control, hint] using hstatus

/-- A task whose reviewer asks the user. -/
theorem finished_not_running_escalated :
    ∃ c : Config, c.next = none ∧ c.status ≠ .running := by
  have hplay : ((Preset.full.compiled Preset.builtinDevTools false).start "task"
      { title := "t", description := "d" }).control.play .full
        ([{}, {}, { verdict := .needUserDecision }].map .node)
          = some ([.planner, .developer, .reviewer], _) := rfl
  obtain ⟨l, c, hrun, hc, hnodes, -⟩ := Preset.exists_honest_run (by decide) hplay
  rw [← Preset.graph_eq] at hrun
  refine ⟨c, congrArg Control.next hc, finished_not_running (p := .full) (b := {}) rfl
    (hrun.map .superstep ?_) (congrArg Control.next hc)
    (Config.interrupt_eq_none (congrArg Control.interrupted hc))⟩
  -- the run has no delivery, and no gate
  rintro s e t he ⟨-, w, hstep⟩
  refine ⟨.superstep hstep, fun hd => ?_, fun hg => by cases hg⟩
  have hmem : e.node ∈ l.map StepLog.node := List.mem_map_of_mem he
  rw [hnodes, hd] at hmem
  simp at hmem

/-- An approved task whose delivery text is empty ends as `running`. -/
theorem empty_delivery_reported_running :
    ∃ h c, Run (ServiceStep Preset.full.graph {}) (Preset.full.graph.start "task"
        { title := "t", description := "d" }) h c ∧
      (executed h).map StepLog.node = [.planner, .developer, .reviewer, .delivery] ∧
      c.next = none ∧ c.interrupt = none ∧ c.status = .running := by
  have hplay : ((Preset.full.compiled Preset.builtinDevTools false).start "task"
      { title := "t", description := "d" }).control.play .full
        [.node {}, .node {}, .node {}, .node { delivers := false }]
          = some ([.planner, .developer, .reviewer, .delivery], _) := rfl
  obtain ⟨h, c, hrun, hc, hnodes⟩ := Preset.exists_history (by decide) hplay
  rw [← Preset.graph_eq] at hrun
  have hint := Config.interrupt_eq_none (congrArg Control.interrupted hc)
  refine ⟨h, c, hrun, hnodes, congrArg Control.next hc, hint, ?_⟩
  rw [Config.status_eq, hc]
  decide

/-! ## `completed` reflects the last verdict -/

/-- The latest verdict of a state is a pass. -/
def TaskState.verdictPassed (s : TaskState) : Prop :=
  match s.verification with
  | some v => v.passed = true
  | none => s.review.map ReviewerDecision.decision = some .approved

/-- The steps that keep the second law: on a task that has been delivered, a resume is issued
only over a passed verification, and the oracle passes again. -/
def KeepsVerdict (c : Config) : Action → Prop
  | .superstep e => Py.truthy c.values.delivery = true → e.node = .verify →
      e.run.choice.passes = true
  | .resumed _ _ => Py.truthy c.values.delivery = true →
      c.values.verification.map VerificationResult.passed = some true

namespace Ledger

/-- The latest verdict is a pass. -/
def Passed (l : Ledger) : Prop :=
  match l.verification with
  | some passed => passed = true
  | none => l.review = some .approved

end Ledger

theorem TaskState.verdictPassed_iff {s : TaskState} : s.verdictPassed ↔ s.ledger.Passed := by
  unfold TaskState.verdictPassed Ledger.Passed TaskState.ledger
  cases s.verification <;> simp

/-- Only a delivery completes a task. -/
theorem Ledger.status_ne_completed {l : Ledger} (h : l.delivered = false) {i : Bool} :
    l.status i ≠ .completed := by
  unfold status
  split_ifs <;> simp_all

/-- The task is delivered on a pass only, and a delivered task moves on under a passed oracle
only. -/
structure Control.Settled (p : Preset) (c : Control) : Prop where
  delivered : c.delivered = true → c.Passed
  scheduled : c.next = some .delivery → c.Passed
  reviewed : c.next = some .reviewer → c.verification = none
  oracle : c.verification ≠ none → c.hasOracle = true ∧ p = .goal
  onward : c.delivered = true → c.next = none ∨ c.verification = some true
  gate : p = .plannerGate → c.next = some .planner → c.delivered = false
  goalOnly : c.next = some .verify ∨ c.next = some .supervisor → p = .goal

namespace Ledger

theorem passed_of_verification {l : Ledger} (h : l.verification = some true) : l.Passed := by
  simp [Passed, h]

theorem passed_of_review {l : Ledger} (hv : l.verification = none)
    (hr : l.review = some .approved) : l.Passed := by
  simp [Passed, hv, hr]

end Ledger

namespace Control.Settled

variable {p : Preset} {c : Control}

/-- Where the run goes on, a delivered task needs its passed oracle. -/
theorem goto_of {l : Ledger} {next : Option NodeName}
    (hd : l.delivered = true → l.verification = some true)
    (hsched : next = some .delivery → l.Passed)
    (hrev : next = some .reviewer → l.verification = none)
    (ho : l.verification ≠ none → l.hasOracle = true ∧ p = .goal)
    (hgate : p = .plannerGate → next = some .planner → l.delivered = false)
    (hgoal : next = some .verify ∨ next = some .supervisor → p = .goal) :
    (l.goto next).Settled p where
  delivered := fun h => Ledger.passed_of_verification (hd h)
  scheduled := hsched
  reviewed := hrev
  oracle := ho
  onward := fun h => .inr (hd h)
  gate := hgate
  goalOnly := hgoal

/-- Where a node is scheduled, a delivered task holds its passed verification. -/
theorem verified (h : c.Settled p) {n : NodeName} (hn : c.next = some n)
    (hd : c.delivered = true) : c.verification = some true := by
  rcases h.onward hd with hnone | hv
  · rw [hn] at hnone
    cases hnone
  · exact hv

theorem step (h : c.Settled p) {x : Choice}
    (hverify : c.delivered = true → c.next = some .verify → x.passes = true) :
    (c.step p x).Settled p := by
  have hout := Control.outcome_step p x c
  generalize c.step p x = c' at hout ⊢
  cases hout with
  | idle _ => exact h
  | planned hn | gated hn _ _ =>
      exact goto_of (by simpa using h.verified hn) (by simp) (by simp)
        (by simpa using h.oracle) (by simp) (by simp)
  | toolCall hn _ _ =>
      exact goto_of (by simpa using h.verified hn) (by simp) (by simp)
        (by simpa using h.oracle) (by simp) (by simp)
  | developed hn =>
      -- only goal mode verifies, and there the developer does not hand over to the reviewer
      have hrev : p.afterDeveloper = some .reviewer → c.verification = none := by
        intro ha
        by_contra hv
        obtain rfl := (h.oracle hv).2
        simp [Preset.afterDeveloper] at ha
      refine goto_of (by simpa using h.verified hn) ?_ (by simpa using hrev)
        (by simpa using h.oracle) ?_ ?_ <;>
        cases p <;> simp [Preset.afterDeveloper]
  | unverified hn ho =>
      refine goto_of (fun hd => ?_) (by simp) (by simp) (by simp) (by simp) (by simp)
      -- a delivered task has passed an oracle that it does not have
      have hv := h.verified hn hd
      rw [(h.oracle (by simp [hv])).1] at ho
      cases ho
  | passed hn ho hpass =>
      obtain rfl := h.goalOnly (.inl hn)
      have hv : (c.toLedger.verify x).verification = some true := by
        rw [Ledger.verify_of_hasOracle ho, hpass]
      exact goto_of (fun _ => hv) (fun _ => Ledger.passed_of_verification hv) (by simp)
        (by simp [ho]) (by simp) (by simp)
  | lastFailure hn ho hfail _ | stuck hn ho hfail _ _ | failed hn ho hfail _ _ =>
      obtain rfl := h.goalOnly (.inl hn)
      have hd : (c.toLedger.verify x).delivered = true → False := by
        intro hd
        rw [Ledger.verify_delivered] at hd
        rw [hverify hd hn] at hfail
        cases hfail
      exact goto_of (fun h => (hd h).elim) (by simp) (by simp) (by simp [ho]) (by simp) (by simp)
  | carriedOn hn _ | replanned hn _ | halted hn _ =>
      obtain rfl := h.goalOnly (.inr hn)
      exact goto_of (h.verified hn) (by simp) (by simp) h.oracle (by simp) (by simp)
  | approved hn hx =>
      have hv := h.reviewed hn
      have hpass : (c.toLedger.reviewer p x).Passed :=
        Ledger.passed_of_review hv (by simp [Ledger.reviewer, hx])
      refine goto_of (h.verified hn) (fun _ => hpass) (fun _ => hv) h.oracle ?_ ?_ <;>
        cases p.delivers <;> simp
  | escalated hn _ | exhausted hn _ _ | sentBack hn _ _ =>
      exact goto_of (h.verified hn) (by simp) (fun _ => h.reviewed hn) h.oracle (by simp) (by simp)
  | delivered hn =>
      have hpass := h.scheduled hn
      exact ⟨fun _ => hpass, by simp, by simp, h.oracle, fun _ => .inl rfl, by simp, by simp⟩
  | interrupted _ _ =>
      exact ⟨h.delivered, h.scheduled, h.reviewed, h.oracle, h.onward, h.gate, h.goalOnly⟩
  | toolsRan hn _ => exact goto_of (h.verified hn) (by simp) (by simp) h.oracle (by simp) (by simp)

theorem resumeReviewer (h : c.Settled p)
    (hcond : c.delivered = true → c.verification = some true) : (c.resumeReviewer p).Settled p := by
  refine goto_of hcond ?_ ?_ h.oracle ?_ ?_ <;>
    · simp only [Ledger.afterReview]
      split <;> simp

theorem resumePlanner (h : c.Settled p)
    (hcond : c.delivered = true → c.verification = some true) : (c.resumePlanner p).Settled p := by
  unfold Control.resumePlanner
  rcases Ledger.afterPlanner_cases p { c.toLedger with review := none, asked := false }
    with ha | ha <;> simp only [ha] <;>
    exact goto_of hcond (by simp) (by simp) h.oracle (by simp) (by simp)

end Control.Settled

/-- **`completed` reflects the last verdict.** In a history whose steps keep the verdict,
every state that reads as completed holds a passed verification, or an approval where there
is no verification. -/
theorem completed_verdict_passed {p : Preset} (hp : p.delivers = true) {b : Bindings}
    {taskId : String} {req : TaskRequest} {h : List Action} {c : Config}
    (hrun : Run (fun c a c' => ServiceStep p.graph b c a c' ∧ KeepsVerdict c a)
      (p.graph.start taskId req) h c)
    (hstatus : c.status = .completed) : c.values.verdictPassed := by
  rw [Preset.graph_eq] at hrun
  have hsettled : c.control.Settled p ∧ c.interrupt = none := by
    refine hrun.invariant (P := fun c => c.control.Settled p ∧ c.interrupt = none) ?_ ⟨?_, rfl⟩
    · rintro c a c' ⟨hc, hint⟩ ⟨hs, hcond⟩
      cases Preset.serviceStep_served hs with
      | superstep hstep hc' =>
          refine ⟨?_, (Preset.superstep_awake hstep).2.1⟩
          rw [hc']
          refine hc.step (fun hd hn => hcond hd ?_)
          exact Graph.node_eq_of_next hstep hn
      | atReviewer _ _ hc' =>
          refine ⟨?_, Config.interrupt_eq_none (by rw [hc']; rfl)⟩
          rw [hc']
          exact hc.resumeReviewer hcond
      | atPlanner _ _ hc' =>
          refine ⟨?_, Config.interrupt_eq_none (by rw [hc']; rfl)⟩
          rw [hc']
          exact hc.resumePlanner hcond
      | atToolCall hpending _ _ _ =>
          rw [hint] at hpending
          cases hpending
    · rw [Preset.start_control, if_pos hp]
      exact ⟨by simp, by simp, by simp, by simp, by simp, by simp, by simp⟩
  have hdelivered : c.control.delivered = true := by
    by_contra hd
    rw [Config.status_eq] at hstatus
    exact Ledger.status_ne_completed (by simpa using hd) hstatus
  exact TaskState.verdictPassed_iff.mpr (hsettled.1.delivered hdelivered)

/-- An approved task is completed on its approval. -/
theorem completed_verdict_passed_approved :
    ∃ c : Config, c.status = .completed ∧ c.values.verdictPassed := by
  have hplay : ((Preset.full.compiled Preset.builtinDevTools false).start "task"
      { title := "t", description := "d" }).control.play .full ([{}, {}, {}, {}].map .node)
        = some ([.planner, .developer, .reviewer, .delivery], _) := rfl
  obtain ⟨l, c, hrun, hc, hnodes, -⟩ := Preset.exists_honest_run (by decide) hplay
  have hstatus : c.status = .completed := by
    rw [Config.status_eq, hc]
    decide
  rw [← Preset.graph_eq] at hrun
  refine ⟨c, hstatus, completed_verdict_passed (p := .full) (b := {}) rfl
    (hrun.map .superstep ?_) hstatus⟩
  -- the run has no verifier
  rintro s e t he ⟨-, w, hstep⟩
  refine ⟨.superstep hstep, fun _ hv => ?_⟩
  have hmem : e.node ∈ l.map StepLog.node := List.mem_map_of_mem he
  rw [hnodes, hv] at hmem
  simp at hmem

/-- A completed task that is resumed reads as completed while the reviewer asks the user. -/
theorem resumed_completed_task_verdict :
    ∃ h c, Run (ServiceStep Preset.full.graph {}) (Preset.full.graph.start "task"
        { title := "t", description := "d" }) h c ∧ c.next = none ∧ c.status = .completed ∧
      ¬ c.values.verdictPassed := by
  have hplay : ((Preset.full.compiled Preset.builtinDevTools false).start "task"
      { title := "t", description := "d" }).control.play .full
        [.node {}, .node {}, .node {}, .node {}, .resumeReviewer "and a changelog", .node {},
          .node { verdict := .needUserDecision }]
          = some ([.planner, .developer, .reviewer, .delivery, .developer, .reviewer], _) := rfl
  obtain ⟨h, c, hrun, hc, -⟩ := Preset.exists_history (by decide) hplay
  rw [← Preset.graph_eq] at hrun
  refine ⟨h, c, hrun, congrArg Control.next hc, ?_, ?_⟩
  · rw [Config.status_eq, hc]
    decide
  · have hl : c.values.ledger = _ := congrArg Control.toLedger hc
    rw [TaskState.verdictPassed_iff, hl]
    intro hpass
    cases hpass

end AgentRoom
