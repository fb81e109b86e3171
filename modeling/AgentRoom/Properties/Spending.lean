import AgentRoom.Properties.Budgets

set_option autoImplicit false

/-! # What a run spends

The reviewer, the oracle, the supervisor and the tool-bound developer are counted in the log
of a run and held against the task's own budgets; the rank makes every run end.
-/

namespace AgentRoom

open Transition

/-! ## What a run spends -/

/-- The reviewer was executed. -/
def StepLog.isReview (e : StepLog) : Bool := e.node == .reviewer

/-- The verifier ran its command. -/
def StepLog.ranOracle (e : StepLog) : Bool :=
  e.node == .verify && (e.run.update.verification.getD none).isSome

/-- The supervisor was executed. -/
def StepLog.isRescue (e : StepLog) : Bool := e.node == .supervisor

/-- The superstep gave the developer a fresh tool budget. -/
def StepLog.resetsTools (e : StepLog) : Bool := e.run.update.devRound == some 0

/-- The superstep called a model with tools bound. -/
def StepLog.bindsTools (e : StepLog) : Bool := e.run.calls.any LlmCall.toolsBound

namespace Control

variable {p : Preset} {c : Control}

/-- `k` rescues are accounted for: one at each third failure, none at the last. -/
structure Rescued (k : Nat) (c : Control) : Prop where
  failures : k ≤ c.verifyRound / 3
  iterations : k ≤ (c.maxIterations - 1) / 3
  scheduled : c.next = some .supervisor → k + 1 ≤ c.verifyRound / 3

/-- A superstep that neither verifies nor rescues leaves the account as it is. -/
theorem Rescued.goto {k : Nat} {l l' : Ledger} {next : Option NodeName}
    (h : k ≤ l.verifyRound / 3) (h' : k ≤ (l.maxIterations - 1) / 3)
    (hv : l'.verifyRound = l.verifyRound) (hN : l'.maxIterations = l.maxIterations)
    (hnext : next ≠ some .supervisor) : (l'.goto next).Rescued k :=
  ⟨by simpa [hv] using h, by simpa [hN] using h', fun hs => absurd hs hnext⟩

/-- The supervisor is called on each third failure, and on none twice. -/
theorem Rescued.step {k : Nat} (h : c.Rescued k) (hb : c.Budgeted p) (x : Choice) :
    (c.step p x).Rescued (k + if c.next = some .supervisor then 1 else 0) := by
  have hout := Control.outcome_step p x c
  generalize c.step p x = c' at hout ⊢
  obtain ⟨hf, hi, hs⟩ := h
  cases hout with
  | idle hn => simpa [hn] using (⟨hf, hi, hs⟩ : c.Rescued k)
  | planned hn | gated hn _ _ | toolCall hn _ _ =>
      simp only [hn]
      exact .goto hf hi (by simp) (by simp) (by simp)
  | developed hn =>
      simp only [hn]
      exact .goto hf hi (by simp) (by simp) (by cases p <;> simp [Preset.afterDeveloper])
  | unverified hn _ =>
      simp only [hn]
      exact .goto hf hi rfl rfl (by simp)
  | passed hn ho _ | lastFailure hn ho _ _ | failed hn ho _ _ _ =>
      have hround : (c.toLedger.verify x).verifyRound = c.verifyRound + 1 := by
        rw [Ledger.verify_of_hasOracle ho]
      simp only [hn]
      exact ⟨by simp [hround]; omega, by simpa using hi, by simp⟩
  | stuck hn ho _ _ hthird =>
      have hround : (c.toLedger.verify x).verifyRound = c.verifyRound + 1 := by
        rw [Ledger.verify_of_hasOracle ho]
      -- a third failure has just been counted
      unfold stuckEvery at hthird
      simp only [hn]
      exact ⟨by simp [hround]; omega, by simpa using hi, fun _ => by simp [hround]; omega⟩
  | carriedOn hn _ | replanned hn _ | halted hn _ =>
      obtain ⟨-, hlt⟩ := hb.budgets_open hn (by decide)
      have hk := hs hn
      simp only [hn]
      exact .goto (l := c.toLedger) (by simpa using hk) (by simp; omega) rfl rfl (by simp)
  | approved hn _ =>
      simp only [hn]
      exact .goto hf hi rfl rfl (by cases p.delivers <;> simp)
  | escalated hn _ | exhausted hn _ _ | sentBack hn _ _ | delivered hn | toolsRan hn _ =>
      simp only [hn]
      exact .goto hf hi rfl rfl (by simp)
  | interrupted hn _ =>
      simp only [hn]
      exact ⟨hf, hi, fun hsup => by simp at hsup⟩

end Control

/-! ## Counting in the log -/

section Log

variable {p : Preset} {tools : List Tool} {approval : Bool} {b : Bindings} {w : World}
  {c c' : Config} {e : StepLog}

/-- The oracle runs exactly when a verifier of a task with a verify command is scheduled. -/
theorem superstep_ranOracle (h : (p.compiled tools approval).superstep b w c = .ok (e, c')) :
    e.ranOracle = true ↔ c.next = some .verify ∧ c.control.hasOracle = true := by
  obtain ⟨n, impl, hn, -, -, himpl, he, hrun, -⟩ := Graph.superstep_inv h
  by_cases hv : n = .verify
  · subst hv
    obtain ⟨-, rfl⟩ := Preset.impl_verify himpl
    have hrun' : verifier w c.values = e.run := Except.ok.inj hrun
    by_cases ho : Py.truthy c.values.verifyCommand = true
    · have hsome : e.ranOracle = true := by
        by_cases hcond : (!(runVerifyCommand w.oracle (c.values.verifyRound + 1)).passed &&
            !c.values.devMessages.isEmpty) = true <;>
          simp [StepLog.ranOracle, he, ← hrun', verifier, ho, hcond]
      exact ⟨fun _ => ⟨hn, ho⟩, fun _ => hsome⟩
    · have hnone : e.ranOracle = false := by
        simp [StepLog.ranOracle, ← hrun', verifier, ho]
      refine ⟨fun hran => ?_, fun hran => absurd hran.2 ho⟩
      rw [hnone] at hran
      cases hran
  · refine ⟨fun hran => ?_, fun hran => ?_⟩
    · simp [StepLog.ranOracle, he, hv] at hran
    · rw [hn] at hran
      exact absurd (Option.some.inj hran.1) hv

/-- What a node does to the tool budget: it grants a fresh one, it is the developer spending
one call of it, or it leaves it alone. -/
theorem node_toolBudget {s : TaskState} {resumes : List Decision} {n : NodeName}
    {impl : NodeImpl} {run : NodeRun} (himpl : (p.compiled tools approval).impl n = some impl)
    (hrun : impl.run b w s resumes = .ok run) :
    run.update.devRound = some 0 ∨
      (run.update.devRound = some (s.devRound + 1) ∧
        (run.calls.any LlmCall.toolsBound = true → s.devRound < 8)) ∨
      (run.update.devRound = none ∧ run.calls.any LlmCall.toolsBound = false) := by
  cases n with
  | planner =>
      obtain ⟨-, ⟨-, rfl⟩ | ⟨-, rfl⟩⟩ := Preset.impl_planner himpl
      · cases hrun
        refine .inr (.inr ⟨?_, rfl⟩)
        unfold plannerGate
        by_cases hq : w.gate.openQuestions = [] <;> simp [hq]
      · cases hrun
        -- a revised plan comes with a fresh budget
        by_cases ht : s.devMessages = []
        · exact .inr (.inr ⟨by simp [planner, ht], rfl⟩)
        · exact .inl (by simp [planner, ht])
  | developer =>
      rcases Preset.impl_developer himpl with ⟨-, rfl⟩ | ⟨-, keys, rfl⟩
      · -- tools are bound below the limit only
        obtain ⟨convo, events, llmInput, -, rfl⟩ := developerReact_ok hrun
        refine .inr (.inl ⟨?_, by simp⟩)
        by_cases hc : w.message.toolCalls = [] <;> simp [developerReactUpdate, hc]
      · cases hrun
        exact .inr (.inr ⟨rfl, rfl⟩)
  | verify =>
      obtain ⟨-, rfl⟩ := Preset.impl_verify himpl
      cases hrun
      by_cases ho : Py.truthy s.verifyCommand = true
      · by_cases hcond : (!(runVerifyCommand w.oracle (s.verifyRound + 1)).passed &&
            !s.devMessages.isEmpty) = true
        · exact .inl (by simp [verifier, ho, hcond])
        · exact .inr (.inr ⟨by simp [verifier, ho, hcond], by simp [verifier, ho]⟩)
      · exact .inr (.inr ⟨by simp [verifier, ho], by simp [verifier, ho]⟩)
  | supervisor =>
      obtain ⟨-, rfl⟩ := Preset.impl_supervisor himpl
      cases hrun
      exact .inr (.inr ⟨rfl, rfl⟩)
  | reviewer =>
      obtain ⟨-, ⟨-, rfl⟩ | ⟨-, rfl⟩⟩ := Preset.impl_reviewer himpl
      · cases hrun
        by_cases hf : focusEscalates w.focus s = true
        · exact .inr (.inr ⟨by simp [reviewerTwoCall, hf], by
            simp [reviewerTwoCall, hf, structuredCall]⟩)
        · exact .inr (.inr ⟨by simp [reviewerTwoCall, hf], by
            simp [reviewerTwoCall, hf, structuredCall]⟩)
      · cases hrun
        by_cases hd : w.review.decision = .revisionRequired ∧ s.devMessages ≠ []
        · exact .inl (by simp [reviewer, hd])
        · exact .inr (.inr ⟨by simp only [reviewer, if_neg hd], rfl⟩)
  | delivery =>
      obtain ⟨-, rfl⟩ := Preset.impl_delivery himpl
      simp only [NodeImpl.run, delivery] at hrun
      split at hrun <;> cases hrun <;> exact .inr (.inr ⟨rfl, rfl⟩)
  | tools n =>
      obtain ⟨-, -, rfl⟩ := Preset.impl_tools himpl
      cases approval with
      | false =>
          cases hrun
          exact .inr (.inr ⟨rfl, rfl⟩)
      | true =>
          rcases approvalToolNode_ok hrun with ⟨call, -, rfl⟩ | ⟨answers, -, -, rfl⟩ <;>
            exact .inr (.inr ⟨rfl, rfl⟩)

/-- A superstep that does not reset the tool budget pays for the tools it binds. -/
theorem superstep_toolBudget (h : (p.compiled tools false).superstep b w c = .ok (e, c'))
    (hreset : e.resetsTools = false) :
    c.values.devRound + (if e.bindsTools then 1 else 0) ≤ c'.values.devRound ∧
      (e.bindsTools = true → c.values.devRound < 8) := by
  obtain ⟨n, impl, -, -, -, himpl, -, hrun, -⟩ := Graph.superstep_inv h
  have hreset' : e.run.update.devRound ≠ some 0 := by simpa [StepLog.resetsTools] using hreset
  rw [(Preset.superstep_awake h).2.2, TaskState.apply_devRound]
  unfold StepLog.bindsTools
  -- the node did not reset the budget, so it paid for the call or made none
  rcases node_toolBudget himpl hrun with hzero | ⟨hspent, hlt⟩ | ⟨hnone, hunbound⟩
  · exact absurd hzero hreset'
  · refine ⟨?_, hlt⟩
    rw [hspent, Option.getD_some]
    split <;> omega
  · rw [hnone, hunbound]
    simp

end Log

/-! ## The budgets of a whole run -/

section Runs

variable {p : Preset} {tools : List Tool} {b : Bindings} {c c' : Config} {l : List StepLog}

/-- The account of a run: what its log counts is what the counters of its state say. -/
structure Account (p : Preset) (req : TaskRequest) (l : List StepLog) (c : Config) : Prop where
  maxRevisions : c.control.maxRevisions = req.maxRevisions
  maxIterations : c.control.maxIterations = req.maxIterations
  budgeted : c.control.Budgeted p
  reviews : l.countP StepLog.isReview = c.control.revisionRound
  checks : l.countP StepLog.ranOracle = c.control.verifyRound
  rescues : c.control.Rescued (l.countP StepLog.isRescue)

theorem Account.start (p : Preset) (tools : List Tool) (taskId : String) (req : TaskRequest) :
    Account p req [] ((p.compiled tools false).start taskId req) where
  maxRevisions := rfl
  maxIterations := rfl
  budgeted := start_budgeted p tools taskId req
  reviews := rfl
  checks := rfl
  rescues := ⟨Nat.zero_le _, Nat.zero_le _, by
    rw [Preset.start_control]
    cases p <;> simp [Preset.delivers]⟩

theorem Account.step {req : TaskRequest} {e : StepLog} (h : Account p req l c)
    (hs : HonestStep (p.compiled tools false) b c e c') : Account p req (l ++ [e]) c' := by
  obtain ⟨-, -, -, hc'⟩ := Preset.honestStep_control hs
  obtain ⟨-, w, hstep⟩ := hs
  have hnode : c.control.next = some e.node := Graph.superstep_node hstep
  have horacle : e.ranOracle = true ↔ c.control.next = some .verify ∧ c.control.hasOracle = true :=
    superstep_ranOracle hstep
  refine ⟨?_, ?_, ?_, ?_, ?_, ?_⟩
  · rw [hc', Control.step_maxRevisions, h.maxRevisions]
  · rw [hc', Control.step_maxIterations, h.maxIterations]
  · rw [hc']
    exact h.budgeted.step _
  · rw [hc', Control.step_revisionRound, List.countP_append, h.reviews, hnode]
    simp [StepLog.isReview, List.countP_singleton]
  · -- the log and the counter see the same runs of the oracle
    rw [hc', Control.step_verifyRound, List.countP_append, h.checks, List.countP_singleton]
    by_cases hran : e.ranOracle = true
    · rw [if_pos hran, if_pos (horacle.mp hran)]
    · rw [if_neg hran, if_neg (fun h => hran (horacle.mpr h))]
  · rw [hc', List.countP_append]
    have hr := h.rescues.step h.budgeted e.run.choice
    rw [hnode] at hr
    simpa [StepLog.isRescue, List.countP_singleton] using hr

/-- Between two resets the tool budget bounds the calls with tools bound. -/
theorem countP_bindsTools_le (hrun : Run (HonestStep (p.compiled tools false) b) c l c')
    (hreset : ∀ e ∈ l, e.resetsTools = false) : l.countP StepLog.bindsTools ≤ 8 := by
  refine (hrun.log_invariant (P := fun l c => (∀ e ∈ l, e.resetsTools = false) →
    l.countP StepLog.bindsTools ≤ 8 ∧ l.countP StepLog.bindsTools ≤ c.values.devRound)
    ?_ (fun _ => ⟨by simp, by simp⟩) hreset).1
  rintro l c e c' ih ⟨-, w, hstep⟩ hl
  obtain ⟨h₁, h₂⟩ := ih (fun e he => hl e (List.mem_append_left _ he))
  obtain ⟨hpay, hlt⟩ := superstep_toolBudget hstep (hl e (by simp))
  rw [List.countP_append, List.countP_singleton]
  cases hb : e.bindsTools with
  | true =>
      have := hlt hb
      simp only [hb, if_true] at hpay ⊢
      omega
  | false =>
      simp only [hb, Bool.false_eq_true, if_false] at hpay ⊢
      omega

end Runs

/-- **Every run ends within the task's budgets.** Whatever the world answers, as long as no
node raises and the model keeps to the tools it was given, the run reaches the end of the
graph; it has reviewed at most `max_revisions + 1` times, run the oracle at most
`max_iterations` times, called the supervisor at most every third failure but the last, and
between two resets of `dev_round` called the developer with tools at most 8 times. -/
theorem run_ends_within_budgets (p : Preset) (b : Bindings) (taskId : String)
    (req : TaskRequest) (ω : ℕ → World)
    (hok : ∀ n l c, p.graph.runFor b ω (p.graph.start taskId req) n = .ok (l, c) →
      c.atEnd = false →
        ∃ e c', p.graph.superstep b (ω n) c = .ok (e, c') ∧ e.run.Honest) :
    ∃ n l c, p.graph.runFor b ω (p.graph.start taskId req) n = .ok (l, c) ∧ c.atEnd = true ∧
      l.countP StepLog.isReview ≤ req.maxRevisions + 1 ∧
      l.countP StepLog.ranOracle ≤ req.maxIterations ∧
      l.countP StepLog.isRescue ≤ (req.maxIterations - 1) / 3 ∧
      ∀ l₁ l₂ l₃, l = l₁ ++ l₂ ++ l₃ → (∀ e ∈ l₂, e.resetsTools = false) →
        l₂.countP StepLog.bindsTools ≤ 8 := by
  rw [Preset.graph_eq] at hok ⊢
  -- every superstep of the stream is an honest one, so the rank falls until the end
  obtain ⟨n, l, c, -, hdrive, hend⟩ := drive_reaches_final _ Config.atEnd
    (P := fun c => c.control.Budgeted p) (fun c => c.control.rank p)
    (start_budgeted p Preset.builtinDevTools taskId req) (by
      intro n l c hdrive hfin hb
      obtain ⟨e, c', hstep, hhonest⟩ := hok n l c hdrive hfin
      obtain ⟨hnext, hx, hh, hc'⟩ := Preset.honestStep_control ⟨hhonest, _, hstep⟩
      refine ⟨e, c', hstep, ?_, ?_⟩
      · rw [hc']
        exact hb.step _
      · rw [hc']
        exact hb.rank_step hx hh hnext)
  have hrun : Run (HonestStep (p.compiled Preset.builtinDevTools false) b)
      ((p.compiled Preset.builtinDevTools false).start taskId req) l c := by
    refine drive_run _ Config.atEnd ?_ hdrive
    intro n l t e u hdrive hfin hstep
    obtain ⟨e', u', hstep', hhonest⟩ := hok n l t hdrive hfin
    cases hstep.symm.trans hstep'
    exact ⟨hhonest, _, hstep⟩
  have haccount : Account p req l c :=
    hrun.log_invariant (fun l c e c' h hs => h.step hs) (.start p _ taskId req)
  refine ⟨n, l, c, hdrive, hend, ?_, ?_, ?_, ?_⟩
  · rw [haccount.reviews, ← haccount.maxRevisions]
    exact haccount.budgeted.revisions
  · rw [haccount.checks, ← haccount.maxIterations]
    exact haccount.budgeted.iterations
  · rw [← haccount.maxIterations]
    exact haccount.rescues.iterations
  · -- any stretch of the log is itself a run, from the state the stretch starts in
    rintro l₁ l₂ l₃ rfl hreset
    obtain ⟨_, hfirst, -⟩ := hrun.split
    obtain ⟨_, -, hsegment⟩ := hfirst.split
    exact countP_bindsTools_le hsegment hreset

/-- Where an ungated run stands, the next node exists and nothing waits for a decision. -/
theorem runFor_ready {p : Preset} {tools : List Tool} {b : Bindings} {ω : ℕ → World}
    {taskId : String} {req : TaskRequest} {n : ℕ} {l : List StepLog} {c : Config}
    (h : (p.compiled tools false).runFor b ω ((p.compiled tools false).start taskId req) n
      = .ok (l, c)) :
    c.interrupt = none ∧ ∀ m, c.next = some m → p.hasNode m = true := by
  have hrun : Run (Superstep (p.compiled tools false) b) _ l c :=
    drive_run _ _ (fun _ _ _ _ _ _ _ h => ⟨_, h⟩) h
  refine hrun.invariant (P := fun c => c.interrupt = none ∧
    ∀ m, c.next = some m → p.hasNode m = true) ?_ ⟨rfl, fun m hm => ?_⟩
  · rintro c e c' ⟨-, hnode⟩ ⟨w, hs⟩
    refine ⟨(Preset.superstep_awake hs).2.1, ?_⟩
    rw [← Config.control_next, Preset.superstep_control hs]
    exact Preset.hasNode_step hnode _
  · cases p <;> cases hm <;> rfl

/-- The run of a goal-mode task in a world that agrees to everything. -/
theorem run_ends_within_budgets_agreeable :
    ∃ n l c, Preset.goal.graph.runFor {} (fun _ => World.agreeable) (Preset.goal.graph.start "task"
        { title := "t", description := "d", verifyCommand := some "make" }) n = .ok (l, c) ∧
      c.atEnd = true ∧ l.countP StepLog.ranOracle ≤ 10 := by
  obtain ⟨n, l, c, hrun, hend, -, horacle, -⟩ := run_ends_within_budgets .goal {} "task"
    { title := "t", description := "d", verifyCommand := some "make" } (fun _ => World.agreeable)
    (by
      intro n l c hdrive hfin
      rw [Preset.graph_eq] at hdrive ⊢
      obtain ⟨hint, hnode⟩ := runFor_ready hdrive
      obtain ⟨m, hm⟩ : ∃ m, c.next = some m := by
        simpa [Config.atEnd, Option.isSome_iff_exists] using hfin
      obtain ⟨e, c', hstep, hreply⟩ := Preset.superstep_total
        Preset.builtinDevTools (w := World.agreeable) hm (hnode m hm) hint rfl
      refine ⟨e, c', hstep, fun call hcall _ r hr => ?_⟩
      rw [hreply call hcall r hr]
      rfl)
  exact ⟨n, l, c, hrun, hend, horacle⟩

end AgentRoom
