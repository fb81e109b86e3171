import AgentRoom.Eval.Runner
import AgentRoom.Simulation

set_option autoImplicit false

/-! # What the harness records of an escalation

`escalated` is taken from the snapshot after the initial run. The handlers of a failed call take
it again, from the snapshot they make; after a failed follow-up that is the snapshot of a
resumed run.
-/

namespace AgentRoom.Eval

open Transition

namespace Execution

variable {variant : Variant} {task : Task} {taskId : String}

/-- The follow-up was sent and its resume failed. -/
def FollowUpFailed (x : Execution variant task taskId) : Prop :=
  x.runEnd = .returned ∧ x.afterRun.status = .awaitingUser ∧ task.followUp.isSome ∧
    x.resumeEnd ≠ .returned

theorem awaiting_iff {c : Config} : awaiting c = true ↔ c.status = .awaitingUser := by
  unfold awaiting
  exact decide_eq_true_iff

/-- After a failed follow-up the value is that of the resumed task. -/
theorem escalated_of_followUpFailed {x : Execution variant task taskId} (h : x.FollowUpFailed)
    (timeout : String) : (x.observed timeout).escalated = awaiting x.afterResume := by
  obtain ⟨hrun, hstatus, hfollow, hresume⟩ := h
  unfold observed
  rw [hrun]
  have hsent : (awaiting x.afterRun && task.followUp.isSome) = true := by
    rw [awaiting_iff.mpr hstatus, hfollow, Bool.and_self]
  -- `hresume` picks the handler's branch
  simp only [hsent, if_true]

/-- In every other execution it is that of the initial run. -/
theorem escalated_of_not_followUpFailed {x : Execution variant task taskId}
    (h : ¬ x.FollowUpFailed) (timeout : String) :
    (x.observed timeout).escalated = awaiting x.afterRun := by
  unfold observed
  cases hrun : x.runEnd with
  | timedOut => rfl
  | raised typeName text => rfl
  | returned =>
      simp only
      split
      · next hsent =>
          rw [Bool.and_eq_true, awaiting_iff] at hsent
          cases hresume : x.resumeEnd with
          | returned => rfl
          | timedOut =>
              exact absurd ⟨hrun, hsent.1, hsent.2, by rw [hresume]; exact CallEnd.noConfusion⟩ h
          | raised typeName text =>
              exact absurd ⟨hrun, hsent.1, hsent.2, by rw [hresume]; exact CallEnd.noConfusion⟩ h
      · rfl

end Execution

/-- **When the harness records an escalation as it happened.** Whatever the variant, the task
and the ends of both calls, the record and the outcome given to `verify` say that the task was
escalated exactly when it waited for the user right after its initial run, if and only if no
follow-up failed on a task that no longer waits for the user. -/
theorem record_escalated_iff {variant : Variant} {task : Task} {taskId : String}
    (x : Execution variant task taskId) (timeout : String) :
    (((x.record timeout).escalated = true ↔ x.afterRun.status = .awaitingUser) ∧
      ((x.outcome timeout).escalated = true ↔ x.afterRun.status = .awaitingUser)) ↔
      (x.FollowUpFailed → x.afterResume.status = .awaitingUser) := by
  have hrecord : (x.record timeout).escalated = (x.observed timeout).escalated := rfl
  have houtcome : (x.outcome timeout).escalated = (x.observed timeout).escalated := rfl
  rw [hrecord, houtcome, and_self]
  by_cases hfailed : x.FollowUpFailed
  · rw [Execution.escalated_of_followUpFailed hfailed, Execution.awaiting_iff]
    have hwaited : x.afterRun.status = .awaitingUser := hfailed.2.1
    exact ⟨fun h _ => h.mpr hwaited, fun h => iff_of_true (h hfailed) hwaited⟩
  · rw [Execution.escalated_of_not_followUpFailed hfailed, Execution.awaiting_iff]
    exact iff_of_true Iff.rfl (fun h => absurd h hfailed)

/-! ## A follow-up that times out -/

/-- The gate of the planner asks one question. -/
def questioned : World :=
  { World.agreeable with gate := { plan := "draft", openQuestions := ["which one?"] } }

def gateVariant : Variant :=
  { name := "planner_gate", spec := Preset.plannerGate.spec, haltNode := .planner }

/-- An under-specified task, which a healthy variant escalates. -/
def underspecified : Task :=
  behavioralTask "underspec" { title := "t", description := "d" } true (some "the first one")

/-- The initial run parks at the gate; the follow-up clears the questions and then runs into the
timeout before the developer has answered. -/
theorem underspecified_verdict_flips :
    ∃ x : Execution gateVariant underspecified "task",
      x.runEnd = .returned ∧ x.afterRun.status = .awaitingUser ∧ x.resumeEnd = .timedOut ∧
      (x.record "600.0").escalated = false ∧ (x.record "600.0").passed = false ∧
      ¬ (((x.record "600.0").escalated = true ↔ x.afterRun.status = .awaitingUser) ∧
        ((x.outcome "600.0").escalated = true ↔ x.afterRun.status = .awaitingUser)) := by
  let g := Preset.plannerGate.compiled [] false
  have hparked := Graph.superstep_eq (g := g) (b := {}) (w := questioned)
    (c := g.start "task" underspecified.request) (n := .planner) rfl rfl rfl rfl rfl rfl
    (Preset.route_planner (p := .plannerGate) _ _ _ rfl)
  let x : Execution gateVariant underspecified "task" :=
    { graph := g
      builds := Preset.build_plain rfl [] false
      runEnd := .returned
      afterRun := _
      runs := .returned (.single ⟨_, hparked⟩) (.inl rfl)
      resumeEnd := .timedOut
      afterResume := _
      resumes := fun text _ _ htext => by
        cases htext
        exact .written (by decide) rfl (.cut (.refl _) (by decide)) }
  exact ⟨x, rfl, rfl, rfl, rfl, rfl, fun h => by cases h.1.mpr rfl⟩

end AgentRoom.Eval
