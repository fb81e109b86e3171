import AgentRoom.Realization

set_option autoImplicit false

/-! # Does the user's answer reach the developer?

A resume appends the answer to `user_directives`. The developer without tools renders its
prompt from the state and always sees it; the tool-using developer goes on with a transcript
to which nobody has added it.
-/

namespace AgentRoom

open Transition

/-- The first developer call of every run from `c` mentions `d`. -/
def AnswerReaches (g : Graph) (c : Config) (d : String) : Prop :=
  ∀ b l₁ e l₂ c', Run (Superstep g b) c (l₁ ++ e :: l₂) c' → e.node = .developer →
    (∀ e' ∈ l₁, e'.node ≠ .developer) → ∀ call ∈ e.run.calls, Mentions call.assembled d

/-! ## Parked transcripts -/

/-- The transcript ends with a reply of the developer. -/
def TaskState.endsWithReply (s : TaskState) : Prop :=
  ∃ m, s.devMessages.getLast? = some (.ai m)

/-- What holds of the transcript of a tool-using preset where the run hands over: the
reviewer and the verifier find the developer's reply, the supervisor a fresh tool budget, and
a run that asks the user has stopped at one of the two. -/
structure Parked (c : Config) : Prop where
  reply : c.next = some .reviewer ∨ c.next = some .verify → c.values.endsWithReply
  rescue : c.next = some .supervisor → c.values.devMessages ≠ [] ∧ c.values.devRound = 0
  asks : c.control.review = some .needUserDecision → c.next = none ∧
    c.values.devMessages ≠ [] ∧ (c.values.endsWithReply ∨ c.values.devRound = 0)

theorem TaskState.endsWithReply.ne_nil {s : TaskState} (h : s.endsWithReply) :
    s.devMessages ≠ [] := by
  obtain ⟨m, hm⟩ := h
  intro hnil
  rw [hnil] at hm
  cases hm

/-- An update without messages keeps the reply at the end. -/
theorem TaskState.endsWithReply.apply {s : TaskState} (h : s.endsWithReply) {u : Update}
    (hu : u.devMessages = []) : (s.apply u).endsWithReply := by
  obtain ⟨m, hm⟩ := h
  exact ⟨m, by rw [TaskState.apply_devMessages, hu, List.append_nil, hm]⟩

/-- The developer's update ends the transcript with its reply. -/
theorem endsWithReply_developerReactUpdate (s : TaskState) (convo : List Message)
    (events : List Event) (response : AIMessage) :
    (s.apply (developerReactUpdate s convo events response)).endsWithReply := by
  refine ⟨response, ?_⟩
  by_cases hs : s.devMessages = [] <;> by_cases hc : response.toolCalls = [] <;>
    simp [developerReactUpdate, hs, hc]

/-- Without an oracle the verifier has nothing to say. -/
theorem verifier_devMessages_of_not_hasOracle (w : World) {s : TaskState}
    (ho : s.ledger.hasOracle = false) : (verifier w s).update.devMessages = [] := by
  have hoff : Py.truthy s.verifyCommand = false := ho
  simp [verifier, hoff]

/-- A failed verification goes into a running transcript, with a fresh tool budget. -/
theorem verifier_rescue {w : World} {s : TaskState} (ho : s.ledger.hasOracle = true)
    (hfail : (verifier w s).choice.passes = false) (hne : s.devMessages ≠ []) :
    (s.apply (verifier w s).update).devMessages ≠ [] ∧
      (s.apply (verifier w s).update).devRound = 0 := by
  have hon : Py.truthy s.verifyCommand = true := ho
  cases hp : (runVerifyCommand w.oracle (s.verifyRound + 1)).passed with
  | true => simp [verifier, NodeRun.choice, hon, hp] at hfail
  | false => simp [verifier, hon, hp, hne]

/-- The reviewer writes to the transcript to ask for a revision only. -/
theorem reviewer_devMessages_of_ne {sys : String} {keys : List ContextKey} {w : World}
    {s : TaskState} (hv : (reviewer sys keys w s).choice.verdict ≠ .revisionRequired) :
    (reviewer sys keys w s).update.devMessages = [] := by
  by_cases hd : w.review.decision = .revisionRequired
  · refine absurd ?_ hv
    by_cases ht : s.devMessages = [] <;> simp [NodeRun.choice, reviewer, hd, ht]
  · simp [reviewer, hd]

section Supersteps

variable {p : Preset} {tools : List Tool} {b : Bindings} {w : World} {c c' : Config} {e : StepLog}

/-- What the scheduled node of an ungated preset has run, and the state it leaves. -/
theorem Preset.superstep_run {n : NodeName}
    (hs : (p.compiled tools false).superstep b w c = .ok (e, c')) (hn : c.next = some n) :
    ∃ impl, (p.compiled tools false).impl n = some impl ∧
      impl.run b w c.values c.resumes = .ok e.run ∧ c'.values = c.values.apply e.run.update := by
  obtain ⟨n', impl, hn', -, -, himpl, -, hrun, -⟩ := Graph.superstep_inv hs
  obtain rfl := Option.some.inj (hn'.symm.trans hn)
  exact ⟨impl, himpl, hrun, (Preset.superstep_awake hs).2.2⟩

/-- The tool-using developer leaves its reply at the end of the transcript. -/
theorem superstep_developer_reply (hp : p.usesTools = true)
    (hs : (p.compiled tools false).superstep b w c = .ok (e, c'))
    (hn : c.next = some .developer) : c'.values.endsWithReply := by
  obtain ⟨impl, himpl, hrun, hvalues⟩ := Preset.superstep_run hs hn
  rcases Preset.impl_developer himpl with ⟨-, rfl⟩ | ⟨hplain, -⟩
  · obtain ⟨convo, events, llmInput, -, hrun'⟩ := developerReact_ok hrun
    rw [hvalues, hrun']
    exact endsWithReply_developerReactUpdate _ _ _ _
  · rw [hp] at hplain
    cases hplain

/-- Without an oracle the verifier leaves the developer's reply where it is. -/
theorem superstep_verify_reply (hs : (p.compiled tools false).superstep b w c = .ok (e, c'))
    (hn : c.next = some .verify) (ho : c.control.hasOracle = false)
    (hreply : c.values.endsWithReply) : c'.values.endsWithReply := by
  obtain ⟨impl, himpl, hrun, hvalues⟩ := Preset.superstep_run hs hn
  obtain ⟨-, rfl⟩ := Preset.impl_verify himpl
  have hrun' : verifier w c.values = e.run := Except.ok.inj hrun
  rw [hvalues, ← hrun']
  exact hreply.apply (verifier_devMessages_of_not_hasOracle w ho)

/-- A failed verification grants a running transcript a fresh tool budget. -/
theorem superstep_verify_rescue (hs : (p.compiled tools false).superstep b w c = .ok (e, c'))
    (hn : c.next = some .verify) (ho : c.control.hasOracle = true)
    (hfail : e.run.choice.passes = false) (hne : c.values.devMessages ≠ []) :
    c'.values.devMessages ≠ [] ∧ c'.values.devRound = 0 := by
  obtain ⟨impl, himpl, hrun, hvalues⟩ := Preset.superstep_run hs hn
  obtain ⟨-, rfl⟩ := Preset.impl_verify himpl
  have hrun' : verifier w c.values = e.run := Except.ok.inj hrun
  rw [← hrun'] at hfail
  rw [hvalues, ← hrun']
  exact verifier_rescue ho hfail hne

/-- The supervisor does not touch the transcript. -/
theorem superstep_supervisor_transcript
    (hs : (p.compiled tools false).superstep b w c = .ok (e, c'))
    (hn : c.next = some .supervisor) :
    c'.values.devMessages = c.values.devMessages ∧ c'.values.devRound = c.values.devRound := by
  obtain ⟨impl, himpl, hrun, hvalues⟩ := Preset.superstep_run hs hn
  obtain ⟨-, rfl⟩ := Preset.impl_supervisor himpl
  have hrun' : supervisor supervisorSystem w c.values = e.run := Except.ok.inj hrun
  rw [hvalues, ← hrun']
  simp [supervisor]

/-- A reviewer that does not ask for a revision leaves the developer's reply where it is. -/
theorem superstep_reviewer_reply (hp : p.usesTools = true)
    (hs : (p.compiled tools false).superstep b w c = .ok (e, c')) (hn : c.next = some .reviewer)
    (hv : e.run.choice.verdict ≠ .revisionRequired) (hreply : c.values.endsWithReply) :
    c'.values.endsWithReply := by
  obtain ⟨impl, himpl, hrun, hvalues⟩ := Preset.superstep_run hs hn
  obtain ⟨-, ⟨rfl, -⟩ | ⟨-, rfl⟩⟩ := Preset.impl_reviewer himpl
  · cases hp
  · have hrun' : reviewer reviewerSystem [] w c.values = e.run := Except.ok.inj hrun
    rw [← hrun'] at hv
    rw [hvalues, ← hrun']
    exact hreply.apply (reviewer_devMessages_of_ne hv)

end Supersteps

namespace Parked

variable {p : Preset} {tools : List Tool} {b : Bindings} {w : World} {c c' : Config} {e : StepLog}

/-- A checkpoint that schedules the developer or ends, without a question for the user. -/
theorem of_not_asking (hnext : c.next = none ∨ c.next = some .developer ∨
      c.next = some (.tools .developer) ∨ c.next = some .planner ∨ c.next = some .delivery)
    (hr : c.control.review ≠ some .needUserDecision) : Parked c where
  reply := by rintro (h | h) <;> rw [h] at hnext <;> simp at hnext
  rescue := by intro h; rw [h] at hnext; simp at hnext
  asks := fun h => absurd h hr

/-- A checkpoint at the developer's reply, without a question for the user. -/
theorem of_reply (hreply : c.values.endsWithReply) (hnext : c.next ≠ some .supervisor)
    (hr : c.control.review ≠ some .needUserDecision) : Parked c where
  reply := fun _ => hreply
  rescue := fun h => absurd h hnext
  asks := fun h => absurd h hr

/-- A run that asks the user has ended. -/
theorem not_asking (h : Parked c) {n : NodeName} (hn : c.next = some n) :
    c.control.review ≠ some .needUserDecision := by
  intro hask
  rw [(h.asks hask).1] at hn
  cases hn

theorem step (h : Parked c) (hp : p.usesTools = true)
    (hs : (p.compiled tools false).superstep b w c = .ok (e, c')) : Parked c' := by
  have hgate : p ≠ .plannerGate := by rintro rfl; cases hp
  have hnode : c.control.next = some e.node := Graph.superstep_node hs
  have hnot := h.not_asking hnode
  have hout := Control.outcome_step p e.run.choice c.control
  rw [← Preset.superstep_control hs] at hout
  generalize hk : c'.control = k at hout
  have hnext : c'.next = k.next := congrArg Control.next hk
  have hquiet : k.review ≠ some .needUserDecision → c'.control.review ≠ some .needUserDecision := by
    rw [hk]
    exact id
  cases hout with
  | idle hn =>
      rw [hnode] at hn
      cases hn
  | planned _ =>
      exact of_not_asking (.inr (.inl hnext)) (hquiet (by simpa [Ledger.planner, hgate] using hnot))
  | gated _ hg _ => exact absurd hg hgate
  | toolCall hn _ _ =>
      exact of_reply (superstep_developer_reply hp hs hn) (by simp [hnext])
        (hquiet (by simpa [Ledger.developer, hp] using hnot))
  | developed hn =>
      refine of_reply (superstep_developer_reply hp hs hn) ?_
        (hquiet (by simpa [Ledger.developer, hp] using hnot))
      rw [hnext]
      cases p <;> simp [Preset.afterDeveloper]
  | unverified hn ho =>
      exact of_reply (superstep_verify_reply hs hn ho (h.reply (.inr hn))) (by simp [hnext])
        (hquiet hnot)
  | passed _ _ _ =>
      exact of_not_asking (.inr (.inr (.inr (.inr hnext)))) (hquiet (by simpa using hnot))
  | lastFailure _ _ _ _ => exact of_not_asking (.inl hnext) (hquiet (by simpa using hnot))
  | failed _ _ _ _ _ => exact of_not_asking (.inr (.inl hnext)) (hquiet (by simpa using hnot))
  | stuck hn ho hfail _ _ =>
      refine ⟨by simp [hnext], fun _ => ?_, fun hask => ?_⟩
      · exact superstep_verify_rescue hs hn ho hfail (h.reply (.inr hn)).ne_nil
      · exact absurd hask (hquiet (by simpa using hnot))
  | carriedOn _ hact =>
      exact of_not_asking (.inr (.inl hnext)) (hquiet (by simpa [Ledger.supervisor, hact] using hnot))
  | replanned _ hact =>
      exact of_not_asking (.inr (.inr (.inr (.inl hnext))))
        (hquiet (by simpa [Ledger.supervisor, hact] using hnot))
  | halted hn _ =>
      -- the supervisor asks on the fresh tool budget the verifier has granted
      obtain ⟨hne, hround⟩ := h.rescue hn
      obtain ⟨hmsgs, hround'⟩ := superstep_supervisor_transcript hs hn
      exact ⟨by simp [hnext], by simp [hnext],
        fun _ => ⟨hnext, by rw [hmsgs]; exact hne, .inr (hround'.trans hround)⟩⟩
  | approved _ hv =>
      refine of_not_asking ?_ (hquiet (by simp [Ledger.reviewer, hv]))
      rw [hnext]
      cases p.delivers <;> simp
  | escalated hn hv =>
      have hreply := superstep_reviewer_reply hp hs hn (by rw [hv]; decide) (h.reply (.inl hn))
      exact ⟨fun _ => hreply, by simp [hnext], fun _ => ⟨hnext, hreply.ne_nil, .inl hreply⟩⟩
  | exhausted _ hv _ => exact of_not_asking (.inl hnext) (hquiet (by simp [Ledger.reviewer, hv]))
  | sentBack _ hv _ =>
      exact of_not_asking (.inr (.inl hnext)) (hquiet (by simp [Ledger.reviewer, hv]))
  | delivered _ => exact of_not_asking (.inl hnext) (hquiet hnot)
  | interrupted _ hx => simp [NodeRun.choice, (Preset.superstep_awake hs).1] at hx
  | toolsRan _ _ => exact of_not_asking (.inr (.inl hnext)) (hquiet hnot)

/-- **Every history of a tool-using preset is parked.** -/
theorem of_run {taskId : String} {req : TaskRequest} {h : List Action} (hp : p.usesTools = true)
    (hrun : Run (ServiceStep (p.compiled tools false) b) ((p.compiled tools false).start taskId req)
      h c) : Parked c := by
  have hdel : p.delivers = true := by cases p <;> first | rfl | cases hp
  have hgate : p ≠ .plannerGate := by rintro rfl; cases hp
  refine hrun.invariant (P := Parked) ?_ (of_not_asking (.inr (.inr (.inr (.inl ?_)))) (by
    rw [Preset.start_control]; simp))
  · rintro c a c' hc hs
    cases Preset.serviceStep_served hs with
    | superstep hstep _ => exact hc.step hp hstep
    | atReviewer _ _ hc' =>
        -- a resume withdraws the question
        refine of_not_asking ?_ (by rw [hc']; simp [Control.resumeReviewer])
        rw [← Config.control_next, hc']
        simp only [Control.resumeReviewer, Ledger.goto_next, Ledger.afterReview]
        split <;> simp
    | atPlanner _ _ hc' =>
        refine of_not_asking (.inr (.inl ?_)) (by rw [hc']; simp [Control.resumePlanner])
        rw [← Config.control_next, hc']
        simp only [Control.resumePlanner, Ledger.goto_next, Ledger.afterPlanner_of_ne hgate]
    | atToolCall _ hv hn hc' =>
        refine ⟨?_, ?_, ?_⟩
        · rw [hn, hv]
          exact hc.reply
        · rw [hn, hv]
          exact hc.rescue
        · rw [hn, hv, hc']
          exact hc.asks
  · rw [← Config.control_next, Preset.start_control, if_pos hdel]

end Parked

/-! ## The first developer call after a resume -/

/-- Nothing is called where nothing is scheduled. -/
theorem answerReaches_of_end {g : Graph} {c : Config} {d : String} (hn : c.next = none) :
    AnswerReaches g c d := by
  intro b l₁ e l₂ c' hrun
  obtain ⟨o, l, hl⟩ : ∃ o l, l₁ ++ e :: l₂ = o :: l := by
    cases l₁ with
    | nil => exact ⟨_, _, rfl⟩
    | cons o l => exact ⟨_, _, rfl⟩
  rw [hl] at hrun
  obtain ⟨c₁, ⟨w, hstep⟩, -⟩ := hrun.cons_inv
  rw [Graph.superstep_node hstep] at hn
  cases hn

/-- Where the developer is scheduled, its next call is the first one. -/
theorem answerReaches_iff_of_next {g : Graph} {c : Config} {d : String}
    (hn : c.next = some .developer) :
    AnswerReaches g c d ↔ ∀ b w e c', g.superstep b w c = .ok (e, c') →
      ∀ call ∈ e.run.calls, Mentions call.assembled d := by
  constructor
  · intro h b w e c' hstep
    have hnode := Graph.node_eq_of_next hstep hn
    exact h b [] e [] c' (Run.single ⟨w, hstep⟩) hnode (by simp)
  · intro h b l₁ e l₂ c' hrun hnode hfirst
    cases l₁ with
    | nil =>
        obtain ⟨c₁, ⟨w, hstep⟩, -⟩ := hrun.cons_inv
        exact h b w e c₁ hstep
    | cons o l =>
        obtain ⟨c₁, ⟨w, hstep⟩, -⟩ := hrun.cons_inv
        have ho := Graph.node_eq_of_next hstep hn
        exact absurd ho (hfirst o List.mem_cons_self)

/-- After the developer's own reply the budget note is a message of its own. -/
theorem mentions_appendBudgetNote {convo : List Message} {m : AIMessage}
    (h : convo.getLast? = some (.ai m)) (d : String) :
    Mentions (appendBudgetNote convo) d ↔
      Mentions convo d ∨ Py.Contains (Py.lstrip budgetExhaustedNote) d := by
  have hnote : appendBudgetNote convo = convo ++ [.human (Py.lstrip budgetExhaustedNote)] := by
    simp [appendBudgetNote, h]
  rw [hnote]
  simp only [Mentions, List.mem_append, List.mem_singleton]
  constructor
  · rintro ⟨m, hm | rfl, hd⟩
    · exact .inl ⟨m, hm, hd⟩
    · exact .inr hd
  · rintro (⟨m, hm, hd⟩ | hd)
    · exact ⟨m, .inl hm, hd⟩
    · exact ⟨_, .inr rfl, hd⟩

/-- What the tool-using developer assembles on a transcript that is parked for the user. -/
theorem mentions_assembledConvo {sys : String} {keys : List ContextKey} {n : Nat} (hpos : 0 < n)
    {w : World} {s : TaskState} (hne : s.devMessages ≠ [])
    (hparked : s.endsWithReply ∨ s.devRound = 0) (d : String) :
    Mentions (assembledConvo sys keys n w s) d ↔
      Mentions s.devMessages d ∨
        (n ≤ s.devRound ∧ Py.Contains (Py.lstrip budgetExhaustedNote) d) := by
  have hconvo : initialConvo sys keys w s = s.devMessages := if_neg hne
  rw [assembledConvo, hconvo]
  by_cases hround : n ≤ s.devRound
  · obtain ⟨m, hm⟩ := hparked.resolve_right (by omega)
    rw [if_pos hround, mentions_appendBudgetNote hm]
    simp only [hround, true_and]
  · simp [hround]

/-- What a resume leaves behind when no tool call is pending. -/
theorem Preset.resumed_cases {p : Preset} {tools : List Tool} {b : Bindings} {c c₁ : Config}
    {d : String} {atNode : AtNode} (hawake : c.interrupt = none)
    (hres : ServiceStep (p.compiled tools false) b c (.resumed (.str d) atNode) c₁) :
    d ∈ c₁.values.userDirectives ∧ c₁.values.devMessages = c.values.devMessages ∧
      c₁.values.devRound = c.values.devRound ∧ c₁.interrupt = none ∧
      (c₁.next = none ∨ c₁.next = some .developer) ∧
      (p.usesTools = true → (c₁.next = none ↔
        atNode = .reviewer ∧ c.values.maxRevisions < c.values.revisionRound)) := by
  cases Preset.serviceStep_served hres with
  | atReviewer _ hv hc₁ =>
      -- The review router is asked with a review that demands a revision.
      have hnext : c₁.next = if c.values.maxRevisions < c.values.revisionRound then none
          else some .developer := by
        rw [← Config.control_next, hc₁]
        rfl
      refine ⟨by simp [hv, reviewerResumeUpdate], by simp [hv, reviewerResumeUpdate],
        by simp [hv, reviewerResumeUpdate], Config.interrupt_eq_none (by rw [hc₁]; rfl), ?_, ?_⟩
      · rw [hnext]
        split <;> simp
      · intro _
        rw [hnext]
        simp
  | atPlanner _ hv hc₁ =>
      have hnext : c₁.next = Ledger.afterPlanner p
          { c.values.ledger with review := none, asked := false } := by
        rw [← Config.control_next, hc₁]
        rfl
      refine ⟨by simp [hv, plannerResumeUpdate], by simp [hv, plannerResumeUpdate],
        by simp [hv, plannerResumeUpdate], Config.interrupt_eq_none (by rw [hc₁]; rfl), ?_, ?_⟩
      · rw [hnext]
        exact Ledger.afterPlanner_cases _ _
      · intro hu
        rw [hnext, Ledger.afterPlanner_of_ne (ne_plannerGate_of_usesTools hu)]
        simp
  | atToolCall hpending _ _ _ =>
      rw [hawake] at hpending
      cases hpending

/-- A resume that calls the tool-using developer shows it the answer only if the parked
transcript, or the note on a used-up tool budget, has it already. -/
theorem answerReaches_iff_of_parked {p : Preset} {tools : List Tool} (hu : p.usesTools = true)
    {c c₁ : Config} {d : String} (hn : c₁.next = some .developer) (hint : c₁.interrupt = none)
    (hmsgs : c₁.values.devMessages = c.values.devMessages)
    (hround : c₁.values.devRound = c.values.devRound) (hne : c.values.devMessages ≠ [])
    (hparked : c.values.endsWithReply ∨ c.values.devRound = 0) :
    AnswerReaches (p.compiled tools false) c₁ d ↔
      Mentions c.values.devMessages d ∨
        (8 ≤ c.values.devRound ∧ Py.Contains (Py.lstrip budgetExhaustedNote) d) := by
  have hassembled : ∀ w, Mentions (assembledConvo developerSystemWithTools [] 8 w c₁.values) d
      ↔ Mentions c.values.devMessages d ∨
        (8 ≤ c.values.devRound ∧ Py.Contains (Py.lstrip budgetExhaustedNote) d) := by
    intro w
    rw [mentions_assembledConvo (by omega) (by rw [hmsgs]; exact hne)
      (by simpa only [TaskState.endsWithReply, hmsgs, hround] using hparked), hmsgs, hround]
  rw [answerReaches_iff_of_next hn]
  constructor
  · -- the developer is called: look at its call in an agreeable world
    intro hall
    have hnode : p.hasNode .developer = true := by cases p <;> rfl
    obtain ⟨e, c', hstep, -⟩ := Preset.superstep_total tools (w := World.agreeable)
      hn hnode hint rfl
    obtain ⟨call, hcalls, ⟨-, hconvo⟩ | ⟨hu', -⟩⟩ := Preset.developer_assembled hn hstep
    · have hcall := hall {} World.agreeable e c' hstep call (by rw [hcalls]; simp)
      rw [hconvo] at hcall
      exact (hassembled _).mp hcall
    · rw [hu] at hu'
      cases hu'
  · intro hin b w e c' hstep call hcall
    obtain ⟨call', hcalls, ⟨-, hconvo⟩ | ⟨hu', -⟩⟩ := Preset.developer_assembled hn hstep
    · rw [hcalls, List.mem_singleton] at hcall
      rw [hcall, hconvo]
      exact (hassembled w).mpr hin
    · rw [hu] at hu'
      cases hu'

/-- A resume always shows the answer to the developer without tools. -/
theorem answerReaches_of_plain {p : Preset} {tools : List Tool} (hu : p.usesTools = false)
    {c₁ : Config} {d : String} (hn : c₁.next = some .developer)
    (hdir : d ∈ c₁.values.userDirectives) : AnswerReaches (p.compiled tools false) c₁ d := by
  rw [answerReaches_iff_of_next hn]
  intro b w e c' hstep call hcall
  obtain ⟨call', hcalls, ⟨hu', -⟩ | ⟨-, keys, hconvo⟩⟩ := Preset.developer_assembled hn hstep
  · rw [hu] at hu'
    cases hu'
  · rw [hcalls, List.mem_singleton] at hcall
    rw [hcall, hconvo]
    exact mentions_of_mem_userDirectives developerSystem keys hdir

/-- **When the answer reaches the developer.** A developer without tools always reads it. A
tool-using developer is called again while revision rounds are left (or when the planner is
answered), and then it reads the transcript the halt left behind: the answer stands there only
if some message already had it, or if the note on a used-up tool budget has it. -/
theorem answer_reaches_developer_iff {p : Preset} {b : Bindings} {taskId : String}
    {req : TaskRequest} {h : List Action} {c c₁ : Config} {d : String} {atNode : AtNode}
    (hrun : Run (ServiceStep p.graph b) (p.graph.start taskId req) h c)
    (hreview : c.values.review.map ReviewerDecision.decision = some .needUserDecision)
    (hres : ServiceStep p.graph b c (.resumed (.str d) atNode) c₁) :
    AnswerReaches p.graph c₁ d ↔
      p.usesTools = false ∨
      (atNode = .reviewer ∧ c.values.maxRevisions < c.values.revisionRound) ∨
      Mentions c.values.devMessages d ∨
      (8 ≤ c.values.devRound ∧ Py.Contains (Py.lstrip budgetExhaustedNote) d) := by
  rw [Preset.graph_eq] at hrun hres ⊢
  have hawake := Preset.awake_of_run hrun rfl
  obtain ⟨hdir, hmsgs, hround, hint, hnext, hend⟩ := Preset.resumed_cases hawake hres
  cases hu : p.usesTools with
  | false =>
      simp only [true_or, iff_true]
      rcases hnext with hn | hn
      · exact answerReaches_of_end hn
      · exact answerReaches_of_plain hu hn hdir
  | true =>
      rcases hnext with hn | hn
      · -- no developer call follows
        exact iff_of_true (answerReaches_of_end hn) (.inr (.inl ((hend hu).mp hn)))
      · have hgo : ¬ (atNode = .reviewer ∧ c.values.maxRevisions < c.values.revisionRound) := by
          intro hhalt
          rw [(hend hu).mpr hhalt] at hn
          cases hn
        obtain ⟨-, hne, hparked⟩ := (Parked.of_run hu hrun).asks hreview
        rw [answerReaches_iff_of_parked hu hn hint hmsgs hround hne hparked]
        simp only [Bool.true_eq_false, hgo, false_or]

/-- The answer to a reviewer that asks reaches the developer without tools. -/
theorem answer_reaches_developer_plain :
    ∃ h c c₁, Run (ServiceStep Preset.full.graph {}) (Preset.full.graph.start "task"
        { title := "t", description := "d" }) h c ∧
      ServiceStep Preset.full.graph {} c (.resumed (.str "use PostgreSQL") .reviewer) c₁ ∧
      AnswerReaches Preset.full.graph c₁ "use PostgreSQL" := by
  have hplay : ((Preset.full.compiled Preset.builtinDevTools false).start "task"
      { title := "t", description := "d" }).control.play .full
        [.node {}, .node {}, .node { verdict := .needUserDecision }]
          = some ([.planner, .developer, .reviewer], _) := rfl
  obtain ⟨h, c, hrun, hc, -⟩ := Preset.exists_history (by decide) hplay
  obtain ⟨c₁, hb⟩ := Preset.exists_resumeReviewer Preset.builtinDevTools false
    (p := .full) (by decide) c "use PostgreSQL"
  rw [← Preset.graph_eq] at hrun hb
  have hres : ServiceStep Preset.full.graph {} c (.resumed (.str "use PostgreSQL") .reviewer) c₁ :=
    .resume (by simp) hb
  have hreview : c.values.review.map ReviewerDecision.decision = some .needUserDecision :=
    congrArg (fun k => k.review) hc
  exact ⟨h, c, c₁, hrun, hres,
    (answer_reaches_developer_iff hrun hreview hres).mpr (.inl rfl)⟩

/-! ## A directive that is lost -/

/-- A world whose reviewer asks the user. -/
def World.undecided : World :=
  { World.agreeable with
    review := { decision := .needUserDecision, feedback := "Which database?" } }

/-- A text with a letter that no message has is in none of them. -/
theorem not_mentions_of_char {msgs : List Message} {d : String} (ch : Char) (hd : ch ∈ d.toList)
    (hmsgs : ∀ m ∈ msgs, ch ∉ (extractText m).toList) : ¬ Mentions msgs d := by
  rintro ⟨m, hm, hc⟩
  exact hmsgs m hm (hc.subset hd)

/-- The developer's system prompt has no `Q`. -/
theorem not_mem_developerSystemWithTools : 'Q' ∉ developerSystemWithTools.toList := by
  have happend : ∀ s t : String, 'Q' ∉ s.toList → 'Q' ∉ t.toList → 'Q' ∉ (s ++ t).toList := by
    intro s t hs ht
    simp [hs, ht]
  unfold developerSystemWithTools
  iterate 5 refine happend _ _ ?_ (by decide +kernel)
  decide +kernel

/-! The three supersteps of `full_react` up to the question of the undecided reviewer. -/

namespace Undecided

/-- The state the task starts in. -/
def created : TaskState := initialState "task" { title := "t", description := "d" }

/-- After the planner. -/
def planned : TaskState := created.apply (planner plannerSystem [] .undecided created).update

/-- What the developer assembles. -/
def convo : List Message := assembledConvo developerSystemWithTools [] 8 .undecided planned

/-- After the developer's only turn. -/
def developed : TaskState :=
  planned.apply (developerReactUpdate planned convo [] World.undecided.message)

/-- After the reviewer's question. -/
def asked : TaskState := developed.apply (reviewer reviewerSystem [] .undecided developed).update

theorem superstep_planner :
    ∃ e, (Preset.fullReact.compiled Preset.builtinDevTools false).superstep {} .undecided
      { values := created, next := some .planner }
        = .ok (e, { values := planned, next := some .developer }) :=
  ⟨_, Graph.superstep_eq rfl rfl rfl rfl rfl rfl rfl⟩

theorem superstep_developer :
    ∃ e, (Preset.fullReact.compiled Preset.builtinDevTools false).superstep {} .undecided
      { values := planned, next := some .developer }
        = .ok (e, { values := developed, next := some .reviewer }) := by
  have hrun : (NodeImpl.developerReact developerSystemWithTools [] Preset.builtinDevTools 8).run
      {} .undecided planned [] = _ := developerReact_default _ _ _ _ _
  -- the reply asks for no tool
  have hroute : (Preset.fullReact.compiled Preset.builtinDevTools false).route .developer developed
      = .ok (some .reviewer) :=
    Preset.route_developed _ _ _ rfl _ _ _
  exact ⟨_, Graph.superstep_eq (c := { values := planned, next := some .developer }) rfl rfl rfl rfl
    hrun rfl hroute⟩

theorem superstep_reviewer :
    ∃ e, (Preset.fullReact.compiled Preset.builtinDevTools false).superstep {} .undecided
      { values := developed, next := some .reviewer }
        = .ok (e, { values := asked, next := none }) :=
  ⟨_, Graph.superstep_eq rfl rfl rfl rfl rfl rfl (Preset.route_reviewer _ _ _ (by decide))⟩

/-- The developer is called for the first time, so it gets its prompt and nothing else. -/
theorem convo_eq : convo = (developerPromptBuilder developerSystemWithTools []).build planned := by
  have hfirst : planned.devMessages = [] := rfl
  have hround : ¬ 8 ≤ planned.devRound := by decide
  have hinitial : initialConvo developerSystemWithTools [] .undecided planned
      = (developerPromptBuilder developerSystemWithTools []).build planned := by
    rw [initialConvo, if_pos hfirst]
    exact injectMemory_of_blank rfl (by split <;> rfl) _
  rw [convo, assembledConvo, hinitial]
  exact if_neg hround

/-- The transcript at the question is that prompt and the developer's reply. -/
theorem asked_devMessages :
    asked.devMessages = (developerPromptBuilder developerSystemWithTools []).build planned
      ++ [.ai World.undecided.message] := by
  have hfirst : planned.devMessages = [] := rfl
  have hquiet : (reviewer reviewerSystem [] .undecided developed).update.devMessages = [] :=
    reviewer_devMessages_of_ne (by decide)
  have hturn := developerReactUpdate_devMessages hfirst convo [] World.undecided.message
  calc asked.devMessages = developed.devMessages ++ [] := by
        rw [asked, TaskState.apply_devMessages, hquiet]
    _ = planned.devMessages
          ++ (developerReactUpdate planned convo [] World.undecided.message).devMessages := by
        rw [developed, TaskState.apply_devMessages, List.append_nil]
    _ = convo ++ [.ai World.undecided.message] := by rw [hfirst, hturn, List.nil_append]
    _ = _ := by rw [convo_eq]

/-- No message of the transcript has a `Q`. -/
theorem not_mem_asked : ∀ m ∈ asked.devMessages, 'Q' ∉ (extractText m).toList := by
  rw [asked_devMessages]
  intro m hm hq
  rcases List.mem_append.mp hm with hm | hm
  · -- every letter of the prompt comes from one of its layers
    rcases PromptBuilder.mem_build hm hq with hsep | ⟨l, hl, text, hr, hch⟩
    · revert hsep
      decide
    · simp only [developerPromptBuilder, List.mem_cons, List.not_mem_nil, or_false] at hl
      rcases hl with rfl | rfl | rfl | rfl | rfl
      · cases hr
        exact not_mem_developerSystemWithTools hch
      · cases hr
        revert hch
        decide
      all_goals cases hr
  · rw [List.mem_singleton.mp hm] at hq
    revert hq
    decide

end Undecided

/-- The tool-using preset runs into the question of an undecided reviewer, with revision
rounds left and a transcript without the letter `Q`. -/
theorem undecided_history :
    ∃ h c, Run (ServiceStep (Preset.fullReact.compiled Preset.builtinDevTools false) {})
        ((Preset.fullReact.compiled Preset.builtinDevTools false).start "task"
          { title := "t", description := "d" }) h c ∧
      c.control.review = some .needUserDecision ∧ c.values.devRound = 1 ∧
      c.values.revisionRound ≤ c.values.maxRevisions ∧
      ∀ m ∈ c.values.devMessages, 'Q' ∉ (extractText m).toList := by
  obtain ⟨e₁, hplanned⟩ := Undecided.superstep_planner
  obtain ⟨e₂, hdeveloped⟩ := Undecided.superstep_developer
  obtain ⟨e₃, hasked⟩ := Undecided.superstep_reviewer
  exact ⟨_, _, ((Run.single (.superstep hplanned)).snoc (.superstep hdeveloped)).snoc
    (.superstep hasked), rfl, rfl, by decide, Undecided.not_mem_asked⟩

/-- A tool-using developer never sees the answer: the reviewer of `full_react` asks which
database to use, and the first developer call after the answer does not have it. -/
theorem answer_lost_on_full_react :
    ∃ h c c₁, Run (ServiceStep Preset.fullReact.graph {}) (Preset.fullReact.graph.start "task"
        { title := "t", description := "d" }) h c ∧
      c.values.review.map ReviewerDecision.decision = some .needUserDecision ∧
      ServiceStep Preset.fullReact.graph {} c (.resumed (.str "use PostgreSQL") .reviewer) c₁ ∧
      ¬ AnswerReaches Preset.fullReact.graph c₁ "use PostgreSQL" := by
  simp only [Preset.graph_eq]
  obtain ⟨h, c, hrun, hreview, hround, hleft, hmsgs⟩ := undecided_history
  obtain ⟨c₁, hb⟩ := Preset.exists_resumeReviewer Preset.builtinDevTools false
    (p := .fullReact) (by decide) c "use PostgreSQL"
  have hres : ServiceStep (Preset.fullReact.compiled Preset.builtinDevTools false) {} c
      (.resumed (.str "use PostgreSQL") .reviewer) c₁ := .resume (by simp) hb
  refine ⟨h, c, c₁, hrun, hreview, hres, ?_⟩
  obtain ⟨-, hsame, hround', hint, hnext, hend⟩ :=
    Preset.resumed_cases (Preset.awake_of_run hrun rfl) hres
  have hn : c₁.next = some .developer := by
    refine hnext.resolve_left (fun hn => ?_)
    have hused := ((hend rfl).mp hn).2
    omega
  obtain ⟨-, hne, hparked⟩ := (Parked.of_run rfl hrun).asks hreview
  rw [answerReaches_iff_of_parked rfl hn hint hsame hround' hne hparked]
  rintro (hin | ⟨hbudget, -⟩)
  · exact not_mentions_of_char 'Q' (by decide) hmsgs hin
  · omega

end AgentRoom
