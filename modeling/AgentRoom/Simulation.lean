import AgentRoom.Control

set_option autoImplicit false

/-! # The compiled presets simulate the control skeleton

Every superstep of a compiled preset is one step of the abstract machine
(`Preset.superstep_control`), and every resume is one of its two resumes
(`Preset.beginResume_control`). What holds of the machine then holds of the presets.
-/

namespace AgentRoom

/-! ## Inverting a superstep -/

/-- **What a superstep did**: it ran the scheduled node, and either stopped at an interrupt
or merged the update and moved along the node's edge. -/
theorem Graph.superstep_inv {g : Graph} {b : Bindings} {w : World} {c c' : Config}
    {e : StepLog} (h : g.superstep b w c = .ok (e, c')) :
    ∃ n impl, c.next = some n ∧ c.interrupt = none ∧ w.raises = none ∧
      g.impl n = some impl ∧ e.node = n ∧ impl.run b w c.values c.resumes = .ok e.run ∧
      ((∃ call, e.run.interrupt = some call ∧ e.after = c.values ∧
          c' = { c with interrupt := some call }) ∨
        (e.run.interrupt = none ∧ e.after = c.values.apply e.run.update ∧
          ∃ next, g.route n e.after = .ok next ∧ c' = { values := e.after, next := next })) := by
  unfold Graph.superstep at h
  split at h
  · cases h
  · cases h
  · rename_i n hnext hint
    split at h
    · cases h
    · cases h
    · rename_i impl hraises himpl
      obtain ⟨run, hrun, h⟩ := Fallible.bind_eq_ok h
      cases hi : run.interrupt with
      -- An interrupted node is not merged; it starts anew when it is resumed.
      | some call =>
          simp only [hi, Except.ok.injEq, Prod.mk.injEq] at h
          obtain ⟨rfl, rfl⟩ := h
          exact ⟨n, impl, hnext, hint, hraises, himpl, rfl, hrun, .inl ⟨call, hi, rfl, rfl⟩⟩
      | none =>
          simp only [hi] at h
          obtain ⟨next, hroute, h⟩ := Fallible.bind_eq_ok h
          cases h
          exact ⟨n, impl, hnext, hint, hraises, himpl, rfl, hrun,
            .inr ⟨hi, rfl, next, hroute, rfl⟩⟩

/-- The log names the scheduled node. -/
theorem Graph.superstep_node {g : Graph} {b : Bindings} {w : World} {c c' : Config}
    {e : StepLog} (h : g.superstep b w c = .ok (e, c')) : c.next = some e.node := by
  obtain ⟨n, impl, hn, -, -, -, he, -⟩ := Graph.superstep_inv h
  rw [hn, he]

theorem Graph.node_eq_of_next {g : Graph} {b : Bindings} {w : World} {c c' : Config} {e : StepLog}
    {n : NodeName} (h : g.superstep b w c = .ok (e, c')) (hn : c.next = some n) : e.node = n := by
  rw [Graph.superstep_node h, Option.some_inj] at hn
  exact hn

/-- **What an update of the state did**: it merged the update and moved along the node's edge. -/
theorem Graph.updateState_inv {g : Graph} {c c' : Config} {u : Update} {n : NodeName}
    (h : g.updateState c u n = .ok c') :
    c'.values = c.values.apply u ∧ g.route n c'.values = .ok c'.next := by
  unfold Graph.updateState at h
  split at h
  · cases h
  · obtain ⟨next, hroute, h⟩ := Fallible.bind_eq_ok h
    cases h
    exact ⟨rfl, hroute⟩

/-- The converse for a node that does not interrupt. -/
theorem Graph.superstep_eq {g : Graph} {b : Bindings} {w : World} {c : Config} {n : NodeName}
    {impl : NodeImpl} {run : NodeRun} {next : Option NodeName} (hnext : c.next = some n)
    (hint : c.interrupt = none) (hraises : w.raises = none) (himpl : g.impl n = some impl)
    (hrun : impl.run b w c.values c.resumes = .ok run) (hi : run.interrupt = none)
    (hroute : g.route n (c.values.apply run.update) = .ok next) :
    g.superstep b w c = .ok (⟨n, run, c.values.apply run.update⟩,
      { values := c.values.apply run.update, next := next }) := by
  simp only [Graph.superstep, hnext, hint, hraises, himpl]
  rw [Fallible.ok_bind hrun, hi]
  exact Fallible.ok_bind hroute

/-- The converse for a node that interrupts. -/
theorem Graph.superstep_interrupted {g : Graph} {b : Bindings} {w : World} {c : Config}
    {n : NodeName} {impl : NodeImpl} {run : NodeRun} {call : ToolCall} (hnext : c.next = some n)
    (hint : c.interrupt = none) (hraises : w.raises = none) (himpl : g.impl n = some impl)
    (hrun : impl.run b w c.values c.resumes = .ok run) (hi : run.interrupt = some call) :
    g.superstep b w c = .ok (⟨n, run, c.values⟩, { c with interrupt := some call }) := by
  simp only [Graph.superstep, hnext, hint, hraises, himpl]
  rw [Fallible.ok_bind hrun, hi]

/-! ## The ledger after a node -/

section Ledger

variable (s : TaskState) (w : World) (sys : String) (keys : List ContextKey)

theorem planner_ledger {p : Preset} (hp : p ≠ .plannerGate) :
    (s.apply (planner sys keys w s).update).ledger
      = s.ledger.planner p (planner sys keys w s).choice := by
  by_cases ht : s.devMessages = [] <;>
    simp [planner, TaskState.ledger, Ledger.planner, NodeRun.choice, hp, ht]

theorem plannerGate_ledger :
    (s.apply (plannerGate sys keys w s).update).ledger
      = s.ledger.planner .plannerGate (plannerGate sys keys w s).choice := by
  by_cases hq : w.gate.openQuestions = [] <;>
    simp [plannerGate, TaskState.ledger, Ledger.planner, NodeRun.choice, hq, gateReview]

theorem developer_ledger {p : Preset} (hp : p.usesTools = false) :
    (s.apply (developer sys keys w s).update).ledger = s.ledger.developer p := by
  rw [Ledger.developer, hp]
  simp [developer, TaskState.ledger]

theorem developerReactUpdate_ledger {p : Preset} (hp : p.usesTools = true)
    (convo : List Message) (events : List Event) :
    (s.apply (developerReactUpdate s convo events w.message)).ledger
      = s.ledger.developer p := by
  by_cases ht : s.devMessages = [] <;> by_cases hc : w.message.toolCalls = [] <;>
    simp [developerReactUpdate, TaskState.ledger, Ledger.developer, hp, ht, hc]

theorem verifier_ledger :
    (s.apply (verifier w s).update).ledger = s.ledger.verify (verifier w s).choice := by
  by_cases ho : Py.truthy s.verifyCommand = true
  · by_cases ht : s.devMessages = [] <;>
      cases hp : (runVerifyCommand w.oracle (s.verifyRound + 1)).passed <;>
      simp [verifier, TaskState.ledger, Ledger.verify, NodeRun.choice, ho, ht, hp]
  · simp [verifier, TaskState.ledger, Ledger.verify, ho]

theorem supervisor_ledger :
    (s.apply (supervisor sys w s).update).ledger
      = s.ledger.supervisor (supervisor sys w s).choice := by
  by_cases ha : w.stuck.action = .askUser <;>
    simp [supervisor, TaskState.ledger, Ledger.supervisor, NodeRun.choice, ha, askUserReview]

theorem reviewer_ledger {p : Preset} (hp : p ≠ .twoCallReview) :
    (s.apply (reviewer sys keys w s).update).ledger
      = s.ledger.reviewer p (reviewer sys keys w s).choice := by
  by_cases ht : s.devMessages = [] <;> by_cases hd : w.review.decision = .revisionRequired <;>
    simp [reviewer, TaskState.ledger, Ledger.reviewer, NodeRun.choice, hp, ht, hd]

theorem reviewerTwoCall_ledger :
    (s.apply (reviewerTwoCall sys keys w s).update).ledger
      = s.ledger.reviewer .twoCallReview (reviewerTwoCall sys keys w s).choice := by
  by_cases hf : focusEscalates w.focus s = true <;>
    simp [reviewerTwoCall, TaskState.ledger, Ledger.reviewer, NodeRun.choice, hf, focusReview]

theorem finishDelivery_ledger {b : Bindings} {run : NodeRun}
    (h : delivery sys keys b w s = .ok run) :
    (s.apply run.update).ledger = s.ledger.delivery run.choice := by
  simp only [delivery] at h
  split at h <;> cases h <;>
    simp [TaskState.ledger, Ledger.delivery, NodeRun.choice]

/-- A tool node has nothing to answer before the transcript begins. -/
theorem toolNode_ledger (tools : List Tool) (b : Bindings) :
    (s.apply (toolNode tools b w s).update).ledger = s.ledger := by
  by_cases ht : s.devMessages = [] <;> simp [toolNode, TaskState.ledger, ht]

theorem approvalToolNode_ledger {tools : List Tool} {b : Bindings} {w : World}
    {resumes : List Decision} {run : NodeRun}
    (h : approvalToolNode tools b w s resumes = .ok run) :
    (s.apply run.update).ledger = s.ledger := by
  rcases approvalToolNode_ok h with ⟨call, -, rfl⟩ | ⟨answers, -, hanswers, rfl⟩
  · simp [TaskState.ledger]
  · by_cases ht : s.devMessages = []
    · rw [ht, pendingCalls_nil, List.zip_nil_left] at hanswers
      cases hanswers
      simp [TaskState.ledger, ht]
    · simp [TaskState.ledger, ht]

end Ledger

/-! ## The edges of the compiled presets -/

/-- A router's edge leads where the branch of its signal says. -/
theorem Graph.route_of_router {g : Graph} {n : NodeName} {s : TaskState} {router : RouterName}
    {branches : List (Signal × Option NodeName)} {target : Option NodeName} (sig : Signal)
    (hedge : g.edges.lookup n = some (.router router branches))
    (hsig : router.signal s = sig) (htarget : branches.reverse.lookup sig = some target) :
    g.route n s = .ok target := by
  simp only [Graph.route, hedge, hsig, htarget]

namespace Preset

section Edges

variable {p : Preset} (tools : List Tool) (approval : Bool) (s : TaskState)

theorem route_planner (hp : p.delivers = true) :
    (p.compiled tools approval).route .planner s = .ok (s.ledger.afterPlanner p) := by
  by_cases hgate : p = .plannerGate
  · subst hgate
    by_cases hdev : plannerGateRouter s = .developer
    · have hnext : s.ledger.afterPlanner .plannerGate = some .developer := by
        obtain ⟨hq, hr, hpl⟩ := plannerGateRouter_eq_developer_iff.mp hdev
        simp [Ledger.afterPlanner, TaskState.ledger, hq, hr, hpl]
      rw [hnext]
      exact Graph.route_of_router _ rfl hdev rfl
    · -- whichever of the three conditions failed, the gate has one other signal
      have hhalt : plannerGateRouter s = .halt := by
        unfold plannerGateRouter at hdev ⊢
        split_ifs at hdev ⊢ <;> simp_all
      have hnext : s.ledger.afterPlanner .plannerGate = none := by
        rw [plannerGateRouter_eq_developer_iff, not_and_or, not_and_or] at hdev
        rw [Ledger.afterPlanner, if_pos]
        simpa [TaskState.ledger] using hdev
      rw [hnext]
      exact Graph.route_of_router _ rfl hhalt rfl
  · rw [Ledger.afterPlanner, if_neg (fun h => hgate h.1)]
    cases p <;> first | rfl | contradiction

theorem route_reviewer (hp : p ≠ .solo) :
    (p.compiled tools approval).route .reviewer s = .ok (s.ledger.afterReview p) := by
  have hedge : (p.compiled tools approval).edges.lookup .reviewer = some (.router .reviewRouter
      [(.developer, some .developer), (.delivery, if p.delivers then some .delivery else none),
        (.halt, none)]) := by
    cases p <;> first | rfl | contradiction
  cases hr : s.review with
  | none =>
      refine Graph.route_of_router .halt hedge (by simp [RouterName.signal, reviewRouter, hr]) ?_
      simp only [Ledger.afterReview, TaskState.ledger, hr, Option.map_none]
      rfl
  | some review =>
      simp only [Ledger.afterReview, TaskState.ledger, hr, Option.map_some]
      cases hd : review.decision with
      | approved =>
          exact Graph.route_of_router .delivery hedge
            (by simp [RouterName.signal, reviewRouter, hr, hd]) rfl
      | needUserDecision =>
          exact Graph.route_of_router .halt hedge
            (by simp [RouterName.signal, reviewRouter, hr, hd]) rfl
      | revisionRequired =>
          by_cases hmax : s.maxRevisions < s.revisionRound
          · simp only [if_pos hmax]
            exact Graph.route_of_router .halt hedge
              (by simp [RouterName.signal, reviewRouter, hr, hd, hmax]) rfl
          · simp only [if_neg hmax]
            exact Graph.route_of_router .developer hedge
              (by simp [RouterName.signal, reviewRouter, hr, hd, hmax]) rfl

theorem route_verify :
    (goal.compiled tools approval).route .verify s = .ok s.ledger.afterVerify := by
  cases hv : s.verification with
  | none =>
      simp only [Ledger.afterVerify, TaskState.ledger, hv, Option.map_none]
      exact Graph.route_of_router .reviewer rfl
        (by simp [RouterName.signal, goalRouter, hv]) rfl
  | some v =>
      simp only [Ledger.afterVerify, TaskState.ledger, hv, Option.map_some]
      cases hp : v.passed with
      | true =>
          exact Graph.route_of_router .delivery rfl
            (by simp [RouterName.signal, goalRouter, hv, hp]) rfl
      | false =>
          have hsig : goalRouter s = if s.maxIterations ≤ s.verifyRound then .halt
              else if 0 < s.verifyRound ∧ s.verifyRound % stuckEvery = 0 then .supervisor
              else .developer := by
            simp only [goalRouter, hv, hp, Bool.false_eq_true, if_false, ge_iff_le, gt_iff_lt]
          split_ifs at hsig ⊢
          · exact Graph.route_of_router .halt rfl hsig rfl
          · exact Graph.route_of_router .supervisor rfl hsig rfl
          · exact Graph.route_of_router .developer rfl hsig rfl

theorem route_supervisor :
    (goal.compiled tools approval).route .supervisor s = .ok s.ledger.afterSupervisor := by
  cases hs : s.stuckDecision with
  | none =>
      simp only [Ledger.afterSupervisor, TaskState.ledger, hs, Option.map_none]
      exact Graph.route_of_router .halt rfl (by simp [RouterName.signal, stuckRouter, hs]) rfl
  | some decision =>
      simp only [Ledger.afterSupervisor, TaskState.ledger, hs, Option.map_some]
      cases ha : decision.action <;>
        exact Graph.route_of_router (stuckRouter s) rfl rfl (by simp only [stuckRouter, hs, ha]; rfl)

/-- The way out of a developer; one that uses tools has left a message. -/
theorem route_developer (hs : p.usesTools = true → s.devMessages ≠ []) :
    (p.compiled tools approval).route .developer s
      = .ok (if p.usesTools && decide (pendingCalls s.devMessages ≠ []) then
          some (.tools .developer) else p.afterDeveloper) := by
  cases hu : p.usesTools with
  | false => cases p <;> first | rfl | cases hu
  | true =>
      have hsome : ¬ s.devMessages.isEmpty = true := by simpa using hs hu
      have hreact : (p.compiled tools approval).edges.lookup .developer
          = some (.react (.tools .developer) p.afterDeveloper) := by
        cases p <;> first | rfl | cases hu
      simp only [Graph.route, hreact, if_neg hsome]
      by_cases hc : pendingCalls s.devMessages = [] <;> simp [hc]

/-- The way out of a turn with tools is that of its reply. -/
theorem route_developed (hu : p.usesTools = true) (convo : List Message) (events : List Event)
    (response : AIMessage) :
    (p.compiled tools approval).route .developer
        (s.apply (developerReactUpdate s convo events response))
      = .ok (if response.toolCalls = [] then p.afterDeveloper else some (.tools .developer)) := by
  rw [route_developer _ _ _ (fun _ => devMessages_apply_developerReactUpdate_ne_nil _ _ _ _), hu,
    pendingCalls_apply_developerReactUpdate]
  by_cases hc : response.toolCalls = [] <;> simp [hc]

theorem route_tools (hp : p.usesTools = true) :
    (p.compiled tools approval).route (.tools .developer) s = .ok (some .developer) := by
  cases p <;> first | rfl | contradiction

theorem route_delivery : (p.compiled tools approval).route .delivery s = .ok none := by
  cases p <;> rfl

end Edges

/-! ## The nodes of the compiled presets -/

section Nodes

variable {p : Preset} {tools : List Tool} {approval : Bool} {impl : NodeImpl}

theorem impl_planner (h : (p.compiled tools approval).impl .planner = some impl) :
    p.delivers = true ∧ (p = .plannerGate ∧ impl = .plannerGate plannerGateSystem [] ∨
      p ≠ .plannerGate ∧ impl = .planner plannerSystem []) := by
  cases p <;> cases h <;> simp [delivers]

theorem impl_developer (h : (p.compiled tools approval).impl .developer = some impl) :
    (p.usesTools = true ∧ impl = .developerReact developerSystemWithTools [] tools 8) ∨
      (p.usesTools = false ∧ ∃ keys, impl = .developer developerSystem keys) := by
  cases p <;> cases h <;> simp [usesTools]

/-- A developer with tools leaves a message behind. -/
theorem devMessages_ne_nil_of_developer {b : Bindings} {w : World} {s : TaskState}
    {resumes : List Decision} {run : NodeRun}
    (himpl : (p.compiled tools approval).impl .developer = some impl)
    (hrun : impl.run b w s resumes = .ok run) (hu : p.usesTools = true) :
    (s.apply run.update).devMessages ≠ [] := by
  rcases impl_developer himpl with ⟨-, rfl⟩ | ⟨hnone, -⟩
  · exact devMessages_ne_nil_of_developerReact hrun
  · rw [hnone] at hu
    cases hu

theorem impl_tools {n : NodeName} (h : (p.compiled tools approval).impl (.tools n) = some impl) :
    p.usesTools = true ∧ n = .developer ∧
      impl = if approval then .approvalToolNode tools else .toolNode tools := by
  cases n <;> cases p <;> cases h <;> simp [usesTools]

theorem impl_verify (h : (p.compiled tools approval).impl .verify = some impl) :
    p = .goal ∧ impl = .verifier := by
  cases p <;> cases h
  exact ⟨rfl, rfl⟩

theorem impl_supervisor (h : (p.compiled tools approval).impl .supervisor = some impl) :
    p = .goal ∧ impl = .supervisor supervisorSystem := by
  cases p <;> cases h
  exact ⟨rfl, rfl⟩

theorem impl_reviewer (h : (p.compiled tools approval).impl .reviewer = some impl) :
    p ≠ .solo ∧ (p = .twoCallReview ∧ impl = .reviewerTwoCall reviewerTwoCallSystem [] ∨
      p ≠ .twoCallReview ∧ impl = .reviewer reviewerSystem []) := by
  cases p <;> cases h <;> simp

theorem impl_delivery (h : (p.compiled tools approval).impl .delivery = some impl) :
    p.delivers = true ∧ impl = .delivery deliverySystem [] := by
  cases p <;> cases h <;> simp [delivers]

end Nodes

/-! ## The simulation -/

/-- The ledger after the scheduled node, and where the preset goes from there. -/
theorem node_control {p : Preset} {tools : List Tool} {approval : Bool} {b : Bindings} {w : World}
    {s : TaskState} {resumes : List Decision} {n : NodeName} {impl : NodeImpl} {run : NodeRun}
    {next : Option NodeName} {c : Control}
    (himpl : (p.compiled tools approval).impl n = some impl)
    (hrun : impl.run b w s resumes = .ok run) (hi : run.interrupt = none)
    (hroute : (p.compiled tools approval).route n (s.apply run.update) = .ok next)
    (hc : c.toLedger = s.ledger) (hn : c.next = some n) :
    (s.apply run.update).ledger.goto next = c.step p run.choice := by
  have hx : run.choice.interrupts = false := by simp [NodeRun.choice, hi]
  cases n with
  | planner =>
      obtain ⟨hp, ⟨rfl, rfl⟩ | ⟨hgate, rfl⟩⟩ := impl_planner himpl
      · cases hrun
        rw [route_planner _ _ _ hp, Except.ok.injEq] at hroute
        rw [← hroute, plannerGate_ledger]
        simp only [Control.step, hn, hc]
      · cases hrun
        rw [route_planner _ _ _ hp, Except.ok.injEq] at hroute
        rw [← hroute, planner_ledger _ _ _ _ hgate]
        simp only [Control.step, hn, hc]
  | developer =>
      rw [route_developer _ _ _ (devMessages_ne_nil_of_developer himpl hrun),
        Except.ok.injEq] at hroute
      rcases impl_developer himpl with ⟨hp, rfl⟩ | ⟨hp, keys, rfl⟩
      · obtain ⟨convo, events, llmInput, -, rfl⟩ := developerReact_ok hrun
        rw [pendingCalls_apply_developerReactUpdate] at hroute
        rw [← hroute, developerReactUpdate_ledger _ _ hp]
        simp only [Control.step, hn, hc, NodeRun.choice, pendingCalls_developerReactUpdate]
      · cases hrun
        rw [← hroute, developer_ledger _ _ _ _ hp]
        simp only [Control.step, hn, hc, hp, Bool.false_and]
  | verify =>
      obtain ⟨rfl, rfl⟩ := impl_verify himpl
      cases hrun
      rw [route_verify, Except.ok.injEq] at hroute
      rw [← hroute, verifier_ledger]
      simp only [Control.step, hn, hc]
  | supervisor =>
      obtain ⟨rfl, rfl⟩ := impl_supervisor himpl
      cases hrun
      rw [route_supervisor, Except.ok.injEq] at hroute
      rw [← hroute, supervisor_ledger]
      simp only [Control.step, hn, hc]
  | reviewer =>
      obtain ⟨hp, ⟨rfl, rfl⟩ | ⟨htwo, rfl⟩⟩ := impl_reviewer himpl
      · cases hrun
        rw [route_reviewer _ _ _ hp, Except.ok.injEq] at hroute
        rw [← hroute, reviewerTwoCall_ledger]
        simp only [Control.step, hn, hc]
      · cases hrun
        rw [route_reviewer _ _ _ hp, Except.ok.injEq] at hroute
        rw [← hroute, reviewer_ledger _ _ _ _ htwo]
        simp only [Control.step, hn, hc]
  | delivery =>
      obtain ⟨-, rfl⟩ := impl_delivery himpl
      rw [route_delivery, Except.ok.injEq] at hroute
      rw [← hroute, finishDelivery_ledger _ _ _ _ hrun]
      simp only [Control.step, hn, hc]
  | tools n =>
      obtain ⟨hp, rfl, rfl⟩ := impl_tools himpl
      rw [route_tools _ _ _ hp, Except.ok.injEq] at hroute
      -- answers to tool calls do not touch the ledger
      have hsame : (s.apply run.update).ledger = s.ledger := by
        cases approval with
        | false => cases hrun; exact toolNode_ledger _ _ _ _
        | true => exact approvalToolNode_ledger _ hrun
      rw [← hroute, hsame]
      simp [Control.step, hn, hc, hx]

/-- Only a gated tool node interrupts. -/
theorem interrupt_at_tools {p : Preset} {tools : List Tool} {approval : Bool} {b : Bindings}
    {w : World} {s : TaskState} {resumes : List Decision} {n : NodeName} {impl : NodeImpl}
    {run : NodeRun} {call : ToolCall}
    (himpl : (p.compiled tools approval).impl n = some impl)
    (hrun : impl.run b w s resumes = .ok run) (hi : run.interrupt = some call) :
    n = .tools .developer ∧ approval = true ∧ p.usesTools = true := by
  cases n with
  | planner =>
      obtain ⟨-, ⟨-, rfl⟩ | ⟨-, rfl⟩⟩ := impl_planner himpl <;> cases hrun <;> cases hi
  | developer =>
      rcases impl_developer himpl with ⟨-, rfl⟩ | ⟨-, keys, rfl⟩
      · obtain ⟨_, _, _, -, rfl⟩ := developerReact_ok hrun
        cases hi
      · cases hrun
        cases hi
  | verify =>
      obtain ⟨-, rfl⟩ := impl_verify himpl
      cases hrun
      unfold verifier at hi
      split at hi <;> cases hi
  | supervisor =>
      obtain ⟨-, rfl⟩ := impl_supervisor himpl
      cases hrun
      cases hi
  | reviewer =>
      obtain ⟨-, ⟨-, rfl⟩ | ⟨-, rfl⟩⟩ := impl_reviewer himpl
      · cases hrun
        simp only [reviewerTwoCall] at hi
        split at hi <;> cases hi
      · cases hrun
        cases hi
  | delivery =>
      obtain ⟨-, rfl⟩ := impl_delivery himpl
      simp only [NodeImpl.run, delivery] at hrun
      split at hrun <;> cases hrun <;> cases hi
  -- Ungated tool nodes run to the end; only the gated one can stop at a decision.
  | tools n =>
      obtain ⟨hp, rfl, rfl⟩ := impl_tools himpl
      cases approval with
      | false => cases hrun; cases hi
      | true => exact ⟨rfl, rfl, hp⟩

/-- **Simulation.** A superstep of a compiled preset is a step of the abstract machine. -/
theorem superstep_control {p : Preset} {tools : List Tool} {approval : Bool} {b : Bindings}
    {w : World} {c c' : Config} {e : StepLog}
    (h : (p.compiled tools approval).superstep b w c = .ok (e, c')) :
    c'.control = c.control.step p e.run.choice := by
  obtain ⟨n, impl, hn, hint, -, himpl, -, hrun, hout⟩ := Graph.superstep_inv h
  rcases hout with ⟨call, hi, -, rfl⟩ | ⟨hi, hafter, next, hroute, rfl⟩
  · -- interrupted: nothing was written, the node stays scheduled
    obtain ⟨rfl, -, -⟩ := interrupt_at_tools himpl hrun hi
    have hx : e.run.choice.interrupts = true := by simp [NodeRun.choice, hi]
    simp [Control.step, Config.control, hn, hx]
  · rw [hafter] at hroute ⊢
    exact node_control himpl hrun hi hroute rfl hn

/-- An ungated preset never interrupts. -/
theorem superstep_awake {p : Preset} {tools : List Tool} {b : Bindings} {w : World}
    {c c' : Config} {e : StepLog} (h : (p.compiled tools false).superstep b w c = .ok (e, c')) :
    e.run.interrupt = none ∧ c'.interrupt = none ∧ c'.values = c.values.apply e.run.update := by
  obtain ⟨n, impl, -, -, -, himpl, -, hrun, hout⟩ := Graph.superstep_inv h
  rcases hout with ⟨call, hi, -, -⟩ | ⟨hi, hafter, next, -, rfl⟩
  · exact absurd (interrupt_at_tools himpl hrun hi).2.1 (by simp)
  · exact ⟨hi, rfl, hafter⟩

/-- A superstep of an ungated preset with an honest model is an honest step of the machine. -/
theorem honestStep_control {p : Preset} {tools : List Tool} {b : Bindings} {c c' : Config}
    {e : StepLog} (h : HonestStep (p.compiled tools false) b c e c') :
    c.next ≠ none ∧ e.run.choice.interrupts = false ∧ c.control.Honest p e.run.choice ∧
      c'.control = c.control.step p e.run.choice := by
  obtain ⟨hhonest, w, hstep⟩ := h
  obtain ⟨n, impl, hn, -, -, himpl, -, hrun, -⟩ := Graph.superstep_inv hstep
  refine ⟨by simp [hn], by simp [NodeRun.choice, (superstep_awake hstep).1], ?_,
    superstep_control hstep⟩
  · intro hdev hcalls
    rw [Config.control_next, hn] at hdev
    cases hdev
    rcases impl_developer himpl with ⟨hu, rfl⟩ | ⟨-, keys, rfl⟩
    · refine ⟨hu, ?_⟩
      obtain ⟨convo, events, llmInput, -, heq⟩ := developerReact_ok hrun
      rw [heq] at hhonest hcalls
      -- beyond the limit no tools are bound, and an honest reply calls none
      by_contra hlt
      have hunbound := hhonest _ (List.mem_singleton.mpr rfl) (decide_eq_false hlt) _ rfl
      simp [NodeRun.choice, pendingCalls_developerReactUpdate, hunbound] at hcalls
    · have heq : developer developerSystem keys w c.values = e.run := Except.ok.inj hrun
      simp [NodeRun.choice, ← heq, developer] at hcalls

/-- What the developer of a preset assembles. -/
theorem developer_assembled {p : Preset} {tools : List Tool} {approval : Bool} {b : Bindings}
    {w : World} {c c' : Config} {e : StepLog} (hn : c.next = some .developer)
    (hs : (p.compiled tools approval).superstep b w c = .ok (e, c')) :
    ∃ call, e.run.calls = [call] ∧
      ((p.usesTools = true ∧
          call.assembled = assembledConvo developerSystemWithTools [] 8 w c.values) ∨
        (p.usesTools = false ∧ ∃ keys,
          call.assembled = (developerPromptBuilder developerSystem keys).build c.values)) := by
  obtain ⟨n, impl, hn', -, -, himpl, -, hrun, -⟩ := Graph.superstep_inv hs
  cases hn.symm.trans hn'
  rcases impl_developer himpl with ⟨hu, rfl⟩ | ⟨hu, keys, rfl⟩
  · obtain ⟨convo, events, llmInput, hconvo, hrun'⟩ := developerReact_ok hrun
    rw [hrun']
    exact ⟨_, rfl, .inl ⟨hu, hconvo⟩⟩
  · have hrun' : developer developerSystem keys w c.values = e.run := Except.ok.inj hrun
    obtain ⟨call, hcalls, hconvo⟩ := developer_calls developerSystem keys w c.values
    rw [← hrun']
    exact ⟨call, hcalls, .inr ⟨hu, keys, hconvo⟩⟩

/-! ## Resumes -/

theorem exists_impl_reviewer {p : Preset} (tools : List Tool) (approval : Bool) (hp : p ≠ .solo) :
    ∃ impl, (p.compiled tools approval).impl .reviewer = some impl := by
  cases p <;> first | exact ⟨_, rfl⟩ | contradiction

theorem exists_impl_planner {p : Preset} (tools : List Tool) (approval : Bool)
    (hp : p.delivers = true) : ∃ impl, (p.compiled tools approval).impl .planner = some impl := by
  cases p <;> first | exact ⟨_, rfl⟩ | contradiction

theorem resumeReviewer_control {p : Preset} {tools : List Tool} {approval : Bool}
    {c c' : Config} {text : String}
    (h : (p.compiled tools approval).beginResume c (.str text) .reviewer = .ok c') :
    p ≠ .solo ∧ c'.values = c.values.apply (reviewerResumeUpdate text) ∧ c'.resumes = [] ∧
      c'.control = c.control.resumeReviewer p := by
  have hp : p ≠ .solo := by rintro rfl; cases h
  obtain ⟨impl, himpl⟩ := exists_impl_reviewer tools approval hp
  simp only [Graph.beginResume, Graph.updateState, himpl, route_reviewer _ _ _ hp, bind,
    Except.bind, Except.ok.injEq] at h
  subst h
  refine ⟨hp, rfl, rfl, ?_⟩
  simp [Config.control, Control.resumeReviewer, TaskState.ledger, reviewerResumeUpdate,
    resumeReview, Ledger.goto, Ledger.afterReview]

theorem resumePlanner_control {p : Preset} {tools : List Tool} {approval : Bool}
    {c c' : Config} {text : String}
    (h : (p.compiled tools approval).beginResume c (.str text) .planner = .ok c') :
    p.delivers = true ∧ c'.values = c.values.apply (plannerResumeUpdate text) ∧ c'.resumes = [] ∧
      c'.control = c.control.resumePlanner p := by
  have hp : p.delivers = true := by
    cases p <;> first | rfl | cases h
  obtain ⟨impl, himpl⟩ := exists_impl_planner tools approval hp
  simp only [Graph.beginResume, Graph.updateState, himpl, route_planner _ _ _ hp, bind,
    Except.bind, Except.ok.injEq] at h
  subst h
  refine ⟨hp, rfl, rfl, ?_⟩
  simp [Config.control, Control.resumePlanner, TaskState.ledger, plannerResumeUpdate,
    Ledger.goto, Ledger.afterPlanner]

/-! ## Histories -/

/-- **What one step of a history does to control**: a step of the machine, one of its two
resumes, or a decision that lets an interrupted tool node go on. -/
inductive Served (p : Preset) (tools : List Tool) (approval : Bool) (b : Bindings) (c : Config) :
    Action → Config → Prop
  | superstep {w : World} {e : StepLog} {c' : Config} :
      (p.compiled tools approval).superstep b w c = .ok (e, c') →
      c'.control = c.control.step p e.run.choice → Served p tools approval b c (.superstep e) c'
  | atReviewer {text : String} {c' : Config} : p ≠ .solo →
      c'.values = c.values.apply (reviewerResumeUpdate text) →
      c'.control = c.control.resumeReviewer p →
      Served p tools approval b c (.resumed (.str text) .reviewer) c'
  | atPlanner {text : String} {c' : Config} : p.delivers = true →
      c'.values = c.values.apply (plannerResumeUpdate text) →
      c'.control = c.control.resumePlanner p →
      Served p tools approval b c (.resumed (.str text) .planner) c'
  | atToolCall {d : Decision} {c' : Config} : c.interrupt.isSome = true → c'.values = c.values →
      c'.next = c.next → c'.control = { c.control with interrupted := false } →
      Served p tools approval b c (.resumed d .toolCall) c'

theorem serviceStep_served {p : Preset} {tools : List Tool} {approval : Bool} {b : Bindings}
    {c c' : Config} {a : Action} (h : ServiceStep (p.compiled tools approval) b c a c') :
    Served p tools approval b c a c' := by
  cases h with
  | superstep hs => exact .superstep hs (superstep_control hs)
  | @resume _ _ d atNode hpending hb =>
      cases atNode with
      | toolCall =>
          cases hb
          exact .atToolCall (hpending rfl) rfl rfl rfl
      | reviewer =>
          cases d with
          | dict _ _ => cases hb
          | str text =>
              obtain ⟨hp, hv, -, hc⟩ := resumeReviewer_control hb
              exact .atReviewer hp hv hc
      | planner =>
          cases d with
          | dict _ _ => cases hb
          | str text =>
              obtain ⟨hp, hv, -, hc⟩ := resumePlanner_control hb
              exact .atPlanner hp hv hc
      | other name => cases d <;> cases hb

/-- The checkpoint a task starts from. -/
theorem start_control (p : Preset) (tools : List Tool) (approval : Bool) (taskId : String)
    (req : TaskRequest) :
    ((p.compiled tools approval).start taskId req).control =
      { review := none, revisionRound := 0, maxRevisions := req.maxRevisions, planned := false
        asked := false, delivered := false, hasOracle := Py.truthy req.verifyCommand
        verification := none, verifyRound := 0, maxIterations := req.maxIterations
        stuck := none, transcript := false, devRound := 0
        next := some (if p.delivers then .planner else .developer) } := rfl

/-- In a history of an ungated preset no tool call ever waits for a decision. -/
theorem awake_of_run {p : Preset} {tools : List Tool} {b : Bindings} {c c' : Config}
    {h : List Action} (hrun : Transition.Run (ServiceStep (p.compiled tools false) b) c h c')
    (hc : c.interrupt = none) : c'.interrupt = none := by
  refine hrun.invariant (P := fun c => c.interrupt = none) ?_ hc
  intro c a c' hint hs
  cases serviceStep_served hs with
  | superstep hstep _ => exact (superstep_awake hstep).2.1
  | atReviewer _ _ hc' | atPlanner _ _ hc' => exact Config.interrupt_eq_none (by rw [hc']; rfl)
  | atToolCall hpending _ _ _ =>
      rw [hint] at hpending
      cases hpending

end Preset

end AgentRoom
