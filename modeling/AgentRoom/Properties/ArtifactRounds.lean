import AgentRoom.Simulation

set_option autoImplicit false

/-! # The rounds of artifacts

A reviewer counts its round only after it has dated its artifact, and a developer dates its code
with the rounds counted so far. The two agree only while a review is pending: once a preset has
stopped, every artifact is older than the count, unless nothing was reviewed at all
(`RoundsKept`).
-/

namespace AgentRoom

/-- What a node writes of reviews, rounds and artifacts. -/
inductive Contributes (s : TaskState) (u : Update) : NodeName → Prop
  | review {d : ReviewerDecision} (hreview : u.review = some (some d))
      (hround : u.revisionRound = some (s.revisionRound + 1))
      (hartifacts : ∀ a ∈ u.artifacts, a.round = s.revisionRound) : Contributes s u .reviewer
  | code (hreview : u.review = none) (hround : u.revisionRound = none)
      (hartifacts : ∀ a ∈ u.artifacts,
        a.round = s.revisionRound ∧ pendingCalls u.devMessages = []) : Contributes s u .developer
  | other {n : NodeName} (hreviewer : n ≠ .reviewer) (hdeveloper : n ≠ .developer)
      (hreview : u.review ≠ some none) (hround : u.revisionRound = none)
      (hartifacts : ∀ a ∈ u.artifacts, a.round = 0) : Contributes s u n

/-! ## Node by node -/

section Nodes

variable (s : TaskState) (w : World) (sys : String) (keys : List ContextKey)

theorem planner_contributes : Contributes s (planner sys keys w s).update .planner := by
  by_cases hd : s.devMessages = [] <;>
    exact .other (by simp) (by simp) (by simp [planner, hd]) (by simp [planner, hd])
      (by simp [planner, hd])

theorem plannerGate_contributes : Contributes s (plannerGate sys keys w s).update .planner := by
  by_cases hq : w.gate.openQuestions = [] <;>
    exact .other (by simp) (by simp) (by simp [plannerGate, hq]) (by simp [plannerGate, hq])
      (by simp [plannerGate, hq])

theorem developer_contributes : Contributes s (developer sys keys w s).update .developer :=
  .code rfl rfl (by simp [developer, pendingCalls])

/-- Only the last turn of a tool-using developer leaves an artifact. -/
theorem developerReactUpdate_contributes (convo : List Message) (events : List Event) :
    Contributes s (developerReactUpdate s convo events w.message) .developer := by
  have hpending := pendingCalls_developerReactUpdate s convo events w.message
  by_cases hc : w.message.toolCalls = []
  · refine .code (by simp [developerReactUpdate, hc]) (by simp [developerReactUpdate, hc]) ?_
    intro a ha
    refine ⟨?_, hpending.trans hc⟩
    simp only [developerReactUpdate, hc, if_true, List.mem_singleton] at ha
    rw [ha]
  · exact .code (by simp [developerReactUpdate, hc]) (by simp [developerReactUpdate, hc])
      (by simp [developerReactUpdate, hc])

theorem reviewer_contributes : Contributes s (reviewer sys keys w s).update .reviewer := by
  by_cases hd : w.review.decision = .revisionRequired ∧ s.devMessages ≠ [] <;>
    exact .review (d := w.review) (by simp [reviewer, hd]) (by simp [reviewer, hd])
      (by simp [reviewer, hd])

theorem reviewerTwoCall_contributes :
    Contributes s (reviewerTwoCall sys keys w s).update .reviewer := by
  by_cases hf : focusEscalates w.focus s = true
  · exact .review (d := focusReview w.focus.openQuestions) (by simp [reviewerTwoCall, hf])
      (by simp [reviewerTwoCall, hf]) (by simp [reviewerTwoCall, hf])
  · exact .review (d := w.review) (by simp [reviewerTwoCall, hf]) (by simp [reviewerTwoCall, hf])
      (by simp [reviewerTwoCall, hf])

theorem verifier_contributes : Contributes s (verifier w s).update .verify := by
  by_cases ho : Py.truthy s.verifyCommand = true
  · by_cases hd : s.devMessages = [] <;>
      cases hp : (runVerifyCommand w.oracle (s.verifyRound + 1)).passed <;>
      exact .other (by simp) (by simp) (by simp [verifier, ho, hd, hp])
        (by simp [verifier, ho, hd, hp]) (by simp [verifier, ho, hd, hp])
  · exact .other (by simp) (by simp) (by simp [verifier, ho]) (by simp [verifier, ho])
      (by simp [verifier, ho])

theorem supervisor_contributes : Contributes s (supervisor sys w s).update .supervisor := by
  by_cases ha : w.stuck.action = .askUser <;>
    exact .other (by simp) (by simp) (by simp [supervisor, ha]) rfl (by simp [supervisor])

theorem delivery_contributes {b : Bindings} {run : NodeRun}
    (h : delivery sys keys b w s = .ok run) : Contributes s run.update .delivery := by
  simp only [delivery] at h
  split at h <;> cases h <;> exact .other (by simp) (by simp) (by simp) rfl (by simp)

theorem approvalToolNode_contributes {tools : List Tool} {b : Bindings} {w : World}
    {resumes : List Decision} {run : NodeRun} {n : NodeName}
    (h : approvalToolNode tools b w s resumes = .ok run) : Contributes s run.update (.tools n) := by
  rcases approvalToolNode_ok h with ⟨call, -, rfl⟩ | ⟨answers, -, -, rfl⟩ <;>
    exact .other (by simp) (by simp) (by simp) rfl (by simp)

end Nodes

namespace Preset

variable {p : Preset} {tools : List Tool} {approval : Bool} {b : Bindings} {w : World}

theorem node_contributes {s : TaskState} {resumes : List Decision} {n : NodeName}
    {impl : NodeImpl} {run : NodeRun} (himpl : (p.compiled tools approval).impl n = some impl)
    (hrun : impl.run b w s resumes = .ok run) : Contributes s run.update n := by
  cases n with
  | planner =>
      obtain ⟨-, ⟨-, rfl⟩ | ⟨-, rfl⟩⟩ := impl_planner himpl <;> cases hrun
      · exact plannerGate_contributes s w _ _
      · exact planner_contributes s w _ _
  | developer =>
      rcases impl_developer himpl with ⟨-, rfl⟩ | ⟨-, keys, rfl⟩
      · obtain ⟨convo, events, llmInput, -, rfl⟩ := developerReact_ok hrun
        exact developerReactUpdate_contributes s w convo events
      · cases hrun
        exact developer_contributes s w _ keys
  | verify =>
      obtain ⟨-, rfl⟩ := impl_verify himpl
      cases hrun
      exact verifier_contributes s w
  | supervisor =>
      obtain ⟨-, rfl⟩ := impl_supervisor himpl
      cases hrun
      exact supervisor_contributes s w _
  | reviewer =>
      obtain ⟨-, ⟨-, rfl⟩ | ⟨-, rfl⟩⟩ := impl_reviewer himpl <;> cases hrun
      · exact reviewerTwoCall_contributes s w _ _
      · exact reviewer_contributes s w _ _
  | delivery =>
      obtain ⟨-, rfl⟩ := impl_delivery himpl
      exact delivery_contributes s w _ _ hrun
  | tools n =>
      obtain ⟨-, -, rfl⟩ := impl_tools himpl
      cases approval with
      | true => exact approvalToolNode_contributes s hrun
      | false =>
          cases hrun
          exact .other (by simp) (by simp) (by simp [toolNode]) rfl (by simp [toolNode])

/-- An interrupted node has written nothing. -/
theorem update_of_interrupt {s : TaskState} {resumes : List Decision} {n : NodeName}
    {impl : NodeImpl} {run : NodeRun} {call : ToolCall}
    (himpl : (p.compiled tools approval).impl n = some impl)
    (hrun : impl.run b w s resumes = .ok run) (hi : run.interrupt = some call) :
    run.update = {} := by
  obtain ⟨rfl, rfl, -⟩ := interrupt_at_tools himpl hrun hi
  obtain ⟨-, -, rfl⟩ := impl_tools himpl
  rcases approvalToolNode_ok hrun with ⟨call', -, rfl⟩ | ⟨answers, -, -, rfl⟩
  · rfl
  · cases hi

end Preset

/-! ## A superstep -/

/-- What a superstep of a preset did to reviews, rounds and artifacts. -/
structure Advances (p : Preset) (c : Config) (e : StepLog) (c' : Config) : Prop where
  next : c.next = some e.node
  contributes : Contributes c.values e.run.update e.node
  review : c'.values.review = e.run.update.review.getD c.values.review
  revisionRound : c'.values.revisionRound = e.run.update.revisionRound.getD c.values.revisionRound
  artifacts : c'.values.artifacts = c.values.artifacts ++ e.run.update.artifacts
  control : c'.control = c.control.step p e.run.choice
  /-- Only a tool node is interrupted, and only the developer has one. -/
  interrupted : e.run.interrupt.isSome = true → e.node = .tools .developer
  tools : ∀ n, e.node = .tools n → n = .developer
  parked : c'.interrupt.isSome = true → c'.next = some (.tools .developer)
  reviewer : e.node = .reviewer → p ≠ .solo
  verify : e.node = .verify → p = .goal

theorem Preset.superstep_advances {p : Preset} {tools : List Tool} {approval : Bool}
    {b : Bindings} {c c' : Config} {e : StepLog}
    (h : Superstep (p.compiled tools approval) b c e c') : Advances p c e c' := by
  obtain ⟨w, h⟩ := h
  have hcontrol := superstep_control h
  obtain ⟨n, impl, hn, -, -, himpl, rfl, hrun, hout⟩ := Graph.superstep_inv h
  have hreviewer : e.node = .reviewer → p ≠ .solo := by
    intro he
    rw [he] at himpl
    exact (impl_reviewer himpl).1
  have hverify : e.node = .verify → p = .goal := by
    intro he
    rw [he] at himpl
    exact (impl_verify himpl).1
  have htools : ∀ n, e.node = .tools n → n = .developer := by
    intro n he
    rw [he] at himpl
    exact (impl_tools himpl).2.1
  have hcontributes := node_contributes himpl hrun
  rcases hout with ⟨call, hi, -, rfl⟩ | ⟨hi, hafter, next, -, rfl⟩
  · have hupdate := update_of_interrupt himpl hrun hi
    refine ⟨hn, hcontributes, ?_, ?_, ?_, hcontrol,
      fun _ => (interrupt_at_tools himpl hrun hi).1, htools, ?_, hreviewer, hverify⟩
    · rw [hupdate]
      rfl
    · rw [hupdate]
      rfl
    · rw [hupdate]
      exact (List.append_nil _).symm
    · intro _
      exact hn.trans (congrArg some (interrupt_at_tools himpl hrun hi).1)
  · refine ⟨hn, hcontributes, ?_, ?_, ?_, hcontrol, ?_, htools, nofun, hreviewer, hverify⟩
    · rw [hafter]
      rfl
    · rw [hafter]
      rfl
    · rw [hafter]
      rfl
    · intro hsome
      rw [hi] at hsome
      cases hsome

namespace Advances

variable {p : Preset} {c c' : Config} {e : StepLog}

theorem next_eq (h : Advances p c e c') : c'.next = (c.control.step p e.run.choice).next := by
  rw [← h.control, Config.control_next]

theorem hasOracle (h : Advances p c e c') : c'.control.hasOracle = c.control.hasOracle := by
  rw [h.control, Control.step_hasOracle]

theorem mem_artifacts (h : Advances p c e c') {a : Artifact} (ha : a ∈ c'.values.artifacts) :
    a ∈ c.values.artifacts ∨ a ∈ e.run.update.artifacts := by
  rwa [h.artifacts, List.mem_append] at ha

/-- Fresh code goes to a reviewer, or to the verifier on its way there. -/
theorem next_of_code (h : Advances p c e c') (hn : c.next = some .developer)
    (hpending : pendingCalls e.run.update.devMessages = []) : c'.next = p.afterDeveloper := by
  have hcalls : e.run.choice.calls = false := by simp [NodeRun.choice, hpending]
  rw [h.next_eq, Control.step_developer hn, hcalls, Bool.and_false,
    if_neg Bool.false_ne_true, Ledger.goto_next]

/-- A verifier without an oracle hands over to the reviewer. -/
theorem next_of_verify (h : Advances p c e c') (hn : c.next = some .verify)
    (ho : c.control.hasOracle = false) : c'.next = some .reviewer := by
  rw [h.next_eq, Control.step_verify hn, Ledger.goto_next, Ledger.afterVerify_of_not_hasOracle ho]

end Advances

/-! ## Along a run -/

/-- How the rounds of the artifacts compare with the rounds counted. -/
structure RoundsKept (p : Preset) (c : Config) : Prop where
  le : ∀ a ∈ c.values.artifacts, a.round ≤ c.values.revisionRound
  /-- Where no review is pending, every artifact is from before the last review. -/
  lt : 0 < c.values.revisionRound → c.next ≠ some .reviewer → c.next ≠ some .verify →
    ∀ a ∈ c.values.artifacts, a.round < c.values.revisionRound
  solo : p = .solo → c.values.revisionRound = 0
  parked : c.interrupt.isSome = true → c.next = some (.tools .developer)
  /-- A task with an oracle is not reviewed in goal mode. -/
  oracle : p = .goal → c.control.hasOracle = true →
    c.values.revisionRound = 0 ∧ c.next ≠ some .reviewer

theorem RoundsKept.start (p : Preset) (g : Graph) (taskId : String) (req : TaskRequest)
    (hentry : g.entry ≠ .reviewer) : RoundsKept p (g.start taskId req) where
  le _ ha := absurd ha List.not_mem_nil
  lt hpos := absurd hpos (Nat.lt_irrefl 0)
  solo _ := rfl
  parked := nofun
  oracle _ _ := ⟨rfl, fun h => hentry (Option.some.inj h)⟩

/-- Where goal mode with an oracle goes, it is not to the reviewer. -/
theorem Control.step_next_ne_reviewer {x : Choice} {c : Control} (ho : c.hasOracle = true)
    (hn : c.next ≠ some .reviewer) : (c.step .goal x).next ≠ some .reviewer := by
  have hout := outcome_step .goal x c
  generalize c.step .goal x = c' at hout
  cases hout with
  | idle h => exact hn
  | unverified _ hoff =>
      rw [ho] at hoff
      cases hoff
  | approved h | escalated h | exhausted h | sentBack h => exact absurd h hn
  | interrupted h => exact hn
  | _ => simp [Preset.afterDeveloper]

namespace RoundsKept

variable {p : Preset} {c c' : Config} {e : StepLog}

/-- A review is counted, and everything so far is older. -/
theorem advance_review (h : RoundsKept p c) (hstep : Advances p c e c')
    (he : e.node = .reviewer) (hround : e.run.update.revisionRound
      = some (c.values.revisionRound + 1))
    (hartifacts : ∀ a ∈ e.run.update.artifacts, a.round = c.values.revisionRound) :
    RoundsKept p c' := by
  have hround' : c'.values.revisionRound = c.values.revisionRound + 1 := by
    rw [hstep.revisionRound, hround, Option.getD_some]
  have hlt : ∀ a ∈ c'.values.artifacts, a.round < c'.values.revisionRound := by
    intro a ha
    rw [hround', Nat.lt_succ_iff]
    rcases hstep.mem_artifacts ha with hold | hnew
    · exact h.le a hold
    · exact (hartifacts a hnew).le
  have hn : c.next = some .reviewer := by rw [hstep.next, he]
  exact
    { le := fun a ha => (hlt a ha).le
      lt := fun _ _ _ => hlt
      solo := fun hsolo => absurd hsolo (hstep.reviewer he)
      parked := hstep.parked
      oracle := fun hp ho => absurd hn (h.oracle hp (hstep.hasOracle ▸ ho)).2 }

/-- Where no review is counted, only the new artifacts and the next node matter. -/
theorem advance_same (h : RoundsKept p c) (hstep : Advances p c e c')
    (hround : e.run.update.revisionRound = none)
    (hle : ∀ a ∈ e.run.update.artifacts, a.round ≤ c.values.revisionRound)
    (hlt : 0 < c.values.revisionRound → c'.next ≠ some .reviewer → c'.next ≠ some .verify →
      ∀ a ∈ c'.values.artifacts, a.round < c.values.revisionRound) : RoundsKept p c' := by
  have hround' : c'.values.revisionRound = c.values.revisionRound := by
    rw [hstep.revisionRound, hround, Option.getD_none]
  refine ⟨?_, ?_, ?_, hstep.parked, ?_⟩
  · intro a ha
    rw [hround']
    exact (hstep.mem_artifacts ha).elim (h.le a) (hle a)
  · rw [hround']
    exact hlt
  · intro hsolo
    rw [hround']
    exact h.solo hsolo
  · rintro rfl ho
    rw [hstep.hasOracle] at ho
    rw [hround', hstep.next_eq]
    obtain ⟨hzero, hnext⟩ := h.oracle rfl ho
    exact ⟨hzero, Control.step_next_ne_reviewer ho hnext⟩

/-- **One superstep** keeps the comparison. -/
theorem advance (h : RoundsKept p c) (hstep : Advances p c e c') : RoundsKept p c' := by
  have hcontributes := hstep.contributes
  have hn := hstep.next
  generalize he : e.node = n at hcontributes hn
  cases hcontributes with
  | review _ hround hartifacts => exact h.advance_review hstep he hround hartifacts
  | code _ hround hartifacts =>
      refine h.advance_same hstep hround (fun a ha => (hartifacts a ha).1.le) ?_
      intro hpos hnotReview hnotVerify a ha
      rcases hstep.mem_artifacts ha with hold | hnew
      · exact h.lt hpos (by simp [hn]) (by simp [hn]) a hold
      · exfalso
        have hnext := hstep.next_of_code hn (hartifacts a hnew).2
        cases p with
        | solo => exact absurd (h.solo rfl) hpos.ne'
        | goal => exact hnotVerify hnext
        | _ => exact hnotReview hnext
  | other hreviewer hdeveloper _ hround hartifacts =>
      have hle : ∀ a ∈ e.run.update.artifacts, a.round ≤ c.values.revisionRound := by
        intro a ha
        rw [hartifacts a ha]
        exact Nat.zero_le _
      refine h.advance_same hstep hround hle ?_
      intro hpos hnotReview _ a ha
      rcases hstep.mem_artifacts ha with hold | hnew
      · refine h.lt hpos (by simpa [hn] using hreviewer) ?_ a hold
        intro hverify
        have hgoal := hstep.verify (he.trans (Option.some.inj (hn.symm.trans hverify)))
        cases ho : c.control.hasOracle with
        | true => exact hpos.ne' (h.oracle hgoal ho).1
        | false => exact hnotReview (hstep.next_of_verify hverify ho)
      · rw [hartifacts a hnew]
        exact hpos

end RoundsKept

/-- Where a preset has stopped, every artifact is from before the last review. -/
theorem RoundsKept.lt_of_stopped {p : Preset} {c : Config} (h : RoundsKept p c)
    (hstopped : c.atEnd = true ∨ c.interrupt.isSome = true)
    (hpos : 0 < c.values.revisionRound) :
    ∀ a ∈ c.values.artifacts, a.round < c.values.revisionRound := by
  rcases hstopped with hend | hparked
  · have hnext : c.next = none := by simpa [Config.atEnd] using hend
    exact h.lt hpos (by simp [hnext]) (by simp [hnext])
  · have hnext := h.parked hparked
    exact h.lt hpos (by simp [hnext]) (by simp [hnext])

end AgentRoom
