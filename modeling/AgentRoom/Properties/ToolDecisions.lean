import AgentRoom.Server.Api
import AgentRoom.Realization

set_option autoImplicit false

/-! # Answering an approval halt

A gated tool node halts the run at a tool call. Resumed with `at_node="tool_call"` it goes on
with the decision (`Preset.toolCall_resume_answers`). Over HTTP every resume is one at the
reviewer, so the pending call is dropped and never answered.
-/

namespace AgentRoom

open Transition

/-- `after` continues `before` and answers each of its pending calls. -/
def Answers (before after : List Message) : Prop :=
  ∃ post, after = before ++ post ∧
    ∀ call ∈ pendingCalls before, ∃ t, .tool t ∈ post ∧ t.toolCallId = call.id

/-- The halted task `c` goes on as `c₁` at its tool call: the tool node runs next, it executes
the call on an approval and records a denial otherwise, and no developer is called before
every pending call has its answer. -/
structure AnsweredAtToolCall (g : Graph) (b : Bindings) (tools : List Tool) (call : ToolCall)
    (d : String) (c c₁ : Config) : Prop where
  resolved : c₁.next = some (.tools .developer)
  executed : classifyDecision (.str d) = .approve → hasTool tools call = true →
    ∀ w e c', g.superstep b w c₁ = .ok (e, c') → call ∈ e.run.toolRuns
  denied : ∀ message, classifyDecision (.str d) = .deny message →
    ∀ w e c', g.superstep b w c₁ = .ok (e, c') → e.run.interrupt = none →
      .tool (denialMessage call message) ∈ e.run.update.devMessages
  noCallBefore : ∀ l c₂, Run (Superstep g b) c₁ l c₂ → c₂.next = some .developer →
    (∀ e ∈ l, e.node ≠ .developer) → Answers c.values.devMessages c₂.values.devMessages

namespace Preset

variable {p : Preset} {tools : List Tool} {b : Bindings} {w : World} {c c' : Config} {e : StepLog}
  {call : ToolCall}

/-- What a gated tool node did: it stopped at a call, or answered all of them and handed back
to the developer. -/
theorem gated_superstep (hn : c.next = some (.tools .developer))
    (hs : (p.compiled tools true).superstep b w c = .ok (e, c')) :
    e.run.toolRuns = approvedCalls tools (pendingCalls c.values.devMessages) c.resumes ∧
      ((∃ call, e.run.interrupt = some call ∧ c'.interrupt = some call ∧ c'.next = c.next ∧
          c'.values = c.values ∧ c'.resumes = c.resumes ∧
          (pendingCalls c.values.devMessages)[c.resumes.length]? = some call) ∨
        (e.run.interrupt = none ∧ c'.next = some .developer ∧ ∃ answers,
          (pendingCalls c.values.devMessages)[c.resumes.length]? = none ∧
          ((pendingCalls c.values.devMessages).zip c.resumes).mapM
            (fun p => answerCall tools b w p.1 p.2) = .ok answers ∧
          e.run.update.devMessages = answers.map .tool ∧
          c'.values.devMessages = c.values.devMessages ++ answers.map .tool)) := by
  obtain ⟨n, impl, hn', -, -, himpl, -, hrun, hout⟩ := Graph.superstep_inv hs
  cases hn.symm.trans hn'
  obtain ⟨hu, -, rfl⟩ := impl_tools himpl
  rcases approvalToolNode_ok hrun with ⟨call, hcall, heq⟩ | ⟨answers, hnone, hanswers, heq⟩
  · rw [heq] at hout ⊢
    refine ⟨rfl, .inl ?_⟩
    rcases hout with ⟨call', hi, -, rfl⟩ | ⟨hi, -⟩
    · cases hi
      exact ⟨call, rfl, rfl, rfl, rfl, rfl, hcall⟩
    · cases hi
  · rw [heq] at hout ⊢
    refine ⟨rfl, .inr ?_⟩
    rcases hout with ⟨call', hi, -⟩ | ⟨-, hafter, next, hroute, rfl⟩
    · cases hi
    · rw [route_tools _ _ _ hu, Except.ok.injEq] at hroute
      exact ⟨rfl, hroute.symm, answers, hnone, hanswers, rfl, by rw [hafter]; rfl⟩

/-- A halted tool node waits for a decision on the first call that has none. -/
theorem waiting_of_superstep {approval : Bool}
    (hs : (p.compiled tools approval).superstep b w c = .ok (e, c'))
    (hi : c'.interrupt = some call) : approval = true ∧ c'.next = some (.tools .developer) ∧
      (pendingCalls c'.values.devMessages)[c'.resumes.length]? = some call := by
  obtain ⟨n, impl, hn, hint, -, himpl, -, hrun, hout⟩ := Graph.superstep_inv hs
  rcases hout with ⟨call', hcall', -, hc'⟩ | ⟨-, -, next, -, hc'⟩
  · obtain ⟨rfl, rfl, -⟩ := interrupt_at_tools himpl hrun hcall'
    obtain ⟨-, ⟨call'', -, hi'', hnext, hv, hr, hget⟩ | ⟨hnone, -⟩⟩ := gated_superstep hn hs
    · rw [hi] at hi''
      cases hi''
      exact ⟨rfl, hnext.trans hn, by rw [hv, hr]; exact hget⟩
    · rw [hcall'] at hnone
      cases hnone
  · rw [hc'] at hi
    cases hi

/-- **The service answers a halt at its tool call.** -/
theorem toolCall_resume_answers {c₁ : Config} {d : String}
    (hn : c.next = some (.tools .developer))
    (hcall : (pendingCalls c.values.devMessages)[c.resumes.length]? = some call)
    (hres : (p.compiled tools true).beginResume c (.str d) .toolCall = .ok c₁) :
    AnsweredAtToolCall (p.compiled tools true) b tools call d c c₁ := by
  have hc₁ : { c with resumes := c.resumes ++ [.str d], interrupt := none } = c₁ :=
    Except.ok.inj hres
  have hn₁ : c₁.next = some (.tools .developer) := by rw [← hc₁]; exact hn
  have hv : c₁.values = c.values := by rw [← hc₁]
  have hr : c₁.resumes = c.resumes ++ [.str d] := by rw [← hc₁]
  have hpair := mem_zip_decision hcall (.str d)
  rw [← hv, ← hr] at hpair
  refine ⟨hn₁, fun hd ht w e c' hs => ?_, fun message hd w e c' hs hi => ?_,
    fun l c₂ hrun hdev hfirst => ?_⟩
  · -- an approval starts the tool's body, whatever becomes of the node
    rw [(gated_superstep hn₁ hs).1]
    exact List.mem_map.mpr ⟨_, List.mem_filter.mpr ⟨hpair, by simp [hd, ht]⟩, rfl⟩
  · obtain ⟨-, ⟨call', hi', -⟩ | ⟨-, -, answers, -, hanswers, hmsgs, -⟩⟩ := gated_superstep hn₁ hs
    · rw [hi] at hi'
      cases hi'
    · obtain ⟨t, ht, hok⟩ := Fallible.exists_mem_of_mapM_ok hanswers hpair
      simp only [answerCall, hd, Except.ok.injEq] at hok
      rw [hmsgs, hok]
      exact List.mem_map_of_mem ht
  · cases l with
    | nil =>
        rw [hrun.nil_inv] at hdev
        cases hn₁.symm.trans hdev
    | cons e l =>
        obtain ⟨c', ⟨w, hs⟩, hrest⟩ := hrun.cons_inv
        obtain ⟨-, ⟨call', -, hint, hnext, -⟩ | ⟨-, hnext, answers, hall, hanswers, -, hmsgs⟩⟩ :=
          gated_superstep hn₁ hs
        · -- the batch has another undecided call: the run stops here
          cases l with
          | nil =>
              rw [hrest.nil_inv, hnext] at hdev
              cases hn₁.symm.trans hdev
          | cons e' l =>
              obtain ⟨c₃, ⟨w', hs'⟩, -⟩ := hrest.cons_inv
              obtain ⟨-, -, -, hawake, -⟩ := Graph.superstep_inv hs'
              rw [hint] at hawake
              cases hawake
        · -- the batch is complete: the developer is next
          cases l with
          | nil =>
              rw [hrest.nil_inv, ← hv]
              refine ⟨_, hmsgs, fun call' hcall' => ?_⟩
              obtain ⟨t, ht, hid⟩ := exists_answer hall hanswers hcall'
              exact ⟨t, List.mem_map_of_mem ht, hid⟩
          | cons e' l =>
              obtain ⟨c₃, ⟨w', hs'⟩, -⟩ := hrest.cons_inv
              have hnode := Graph.node_eq_of_next hs' hnext
              exact absurd hnode (hfirst e' (by simp))

/-- In every history of a gated preset, a decision at the tool call answers a halt. -/
theorem halted_task_answered {taskId : String} {req : TaskRequest} {h : List Action}
    {c₁ : Config} {d : String}
    (hrun : Run (ServiceStep (p.compiled tools true) b) ((p.compiled tools true).start taskId req)
      h c)
    (hi : c.interrupt = some call)
    (hres : (p.compiled tools true).beginResume c (.str d) .toolCall = .ok c₁) :
    AnsweredAtToolCall (p.compiled tools true) b tools call d c c₁ := by
  cases hrun with
  | refl => cases hi
  | snoc hprev hs =>
      -- only a superstep leaves a pending call behind
      cases serviceStep_served hs with
      | superstep hstep _ =>
          obtain ⟨-, hn, hcall⟩ := waiting_of_superstep hstep hi
          exact toolCall_resume_answers hn hcall hres
      | atReviewer _ _ hc | atPlanner _ _ hc | atToolCall _ _ _ hc =>
          have hawake := Config.interrupt_eq_none (congrArg Control.interrupted hc)
          rw [hi] at hawake
          cases hawake

end Preset

/-- **Over HTTP an approval halt is never answered**: whatever the decision, no resume goes on
at the tool call. -/
theorem http_resume_never_answers (srv : Server) (b : Bindings) (r : TaskRun) (call : ToolCall)
    (d : String) :
    ¬ ∃ r₁, srv.resumeTask r.config d = .ok r₁ ∧
      AnsweredAtToolCall r₁.graph b srv.devTools call d r.config r₁.config := by
  rintro ⟨r₁, hres, hanswered⟩
  obtain ⟨hg, hb⟩ := Server.resumeTask_ok hres
  obtain ⟨p, -, hcompiled⟩ := Server.taskServiceFor_ok hg
  rw [hcompiled] at hb
  obtain ⟨-, -, -, hc₁⟩ := Preset.resumeReviewer_control hb
  -- a resume at the reviewer schedules the developer or nothing
  have hnext := hanswered.resolved
  rw [← Config.control_next, hc₁] at hnext
  simp only [Control.resumeReviewer, Ledger.goto_next, Ledger.afterReview] at hnext
  split at hnext <;> cases hnext

/-! ## A dropped tool call -/

/-- The call of the halted task. -/
def globCall : ToolCall := { name := "glob", id := "call" }

/-- A world whose model asks for a tool call. -/
def World.caller : World :=
  { World.agreeable with message := { content := .str "", toolCalls := [globCall] } }

/-- The same with other calls. -/
def World.asking (calls : List ToolCall) : World :=
  { World.caller with message := { World.caller.message with toolCalls := calls } }

/-- The server in approval mode. -/
def approvalServer : Server := { settings := { toolMode := "approval" } }

/-- A developer that asks for tools hands over to the gate, and records no event. -/
theorem asked_step (tools : List Tool) (s : TaskState) {calls : List ToolCall} (hne : calls ≠ []) :
    ∃ e s', (Preset.fullReact.compiled tools true).superstep {} (World.asking calls)
        { values := s, next := some .developer }
        = .ok (e, { values := s', next := some (.tools .developer) }) ∧
      e.run.update.events = [] ∧ pendingCalls s'.devMessages = calls ∧
      s'.devRound = s.devRound + 1 ∧ s'.revisionRound = s.revisionRound := by
  let w := World.asking calls
  let convo := assembledConvo developerSystemWithTools [] 8 w s
  have hrun : (NodeImpl.developerReact developerSystemWithTools [] tools 8).run {} w s [] = _ :=
    developerReact_default _ _ _ _ _
  have hroute := (@Preset.route_developed .fullReact tools true s rfl convo [] w.message).trans
    (congrArg _ (if_neg hne))
  -- The turn asks for tools, so it writes neither an artifact nor an event.
  have hturn : developerReactUpdate s convo [] w.message =
      { devRound := some (s.devRound + 1)
        devMessages :=
          if s.devMessages = [] then convo ++ [.ai w.message] else [.ai w.message] } :=
    if_neg hne
  refine ⟨_, _, Graph.superstep_eq (c := { values := s, next := some .developer }) rfl rfl rfl rfl
    hrun rfl hroute, ?_, pendingCalls_apply_developerReactUpdate _ _ _ _, ?_, ?_⟩
  · show (developerReactUpdate s convo [] w.message).events = []
    rw [hturn]
  · show (s.apply (developerReactUpdate s convo [] w.message)).devRound = _
    rw [hturn]
    rfl
  · show (s.apply (developerReactUpdate s convo [] w.message)).revisionRound = _
    rw [hturn]
    rfl

/-- On a gated preset the tool calls of the developer's first reply reach the gate. -/
theorem entered_history (tools : List Tool) (taskId : String) (req : TaskRequest)
    {calls : List ToolCall} (hne : calls ≠ []) :
    ∃ l s, Run (Superstep (Preset.fullReact.compiled tools true) {})
        ((Preset.fullReact.compiled tools true).start taskId req) l
        { values := s, next := some (.tools .developer) } ∧
      pendingCalls s.devMessages = calls ∧ s.devRound = 1 ∧ s.revisionRound = 0 := by
  let g := Preset.fullReact.compiled tools true
  let w := World.asking calls
  let s₀ := initialState taskId req
  let s₁ := s₀.apply (planner plannerSystem [] w s₀).update
  have hplanned : ∃ e, g.superstep {} w { values := s₀, next := some .planner }
      = .ok (e, { values := s₁, next := some .developer }) :=
    ⟨_, Graph.superstep_eq rfl rfl rfl rfl rfl rfl rfl⟩
  obtain ⟨e₁, hplanned⟩ := hplanned
  obtain ⟨e₂, s₂, hdeveloped, -, hcalls, hround, hrevision⟩ := asked_step tools s₁ hne
  exact ⟨_, s₂, (Run.single ⟨w, hplanned⟩).snoc ⟨w, hdeveloped⟩, hcalls, hround, hrevision⟩

/-- On a gated preset the first tool call of the developer halts the task. -/
theorem halted_history (tools : List Tool) (taskId : String) (req : TaskRequest) :
    ∃ l c, Run (Superstep (Preset.fullReact.compiled tools true) {})
        ((Preset.fullReact.compiled tools true).start taskId req) l c ∧
      c.interrupt = some globCall ∧ pendingCalls c.values.devMessages = [globCall] ∧
      c.values.devRound = 1 ∧ c.values.revisionRound = 0 := by
  obtain ⟨l, s, hrun, hcalls, hround, hrevision⟩ :=
    entered_history tools taskId req (show [globCall] ≠ [] by simp)
  have hcall : (pendingCalls s.devMessages)[([] : List Decision).length]? = some globCall := by
    rw [hcalls]
    rfl
  have hgate : (NodeImpl.approvalToolNode tools).run {} World.agreeable s [] = _ :=
    approvalToolNode_interrupt hcall tools {} World.agreeable
  have hhalted := Graph.superstep_interrupted (g := Preset.fullReact.compiled tools true)
    (c := { values := s, next := some (.tools .developer) }) rfl rfl rfl rfl hgate rfl
  exact ⟨_, _, hrun.snoc ⟨World.agreeable, hhalted⟩, rfl, hcalls, hround, hrevision⟩

/-- A task in approval mode halts at a tool call; the answer `approve` makes the developer
call the model again, on a transcript that ends with the unanswered call. -/
theorem approval_dropped_over_http :
    ∃ r₀ h r r₁, approvalServer.createTask {} "task" { title := "t", description := "d" } = .ok r₀ ∧
      Run (HttpStep approvalServer {}) r₀ h r ∧ r.config.interrupt = some globCall ∧
      r.config.status = .awaitingUser ∧
      approvalServer.resumeTask r.config "approve" = .ok r₁ ∧
      (∃ w e c, r₁.graph.superstep {} w r₁.config = .ok (e, c) ∧ e.node = .developer ∧
        ∀ call ∈ e.run.calls, pendingCalls call.assembled = [globCall]) ∧
      ¬ AnsweredAtToolCall r₁.graph {} approvalServer.devTools globCall "approve" r.config
        r₁.config := by
  let tools := approvalServer.devTools
  let req : TaskRequest := { title := "t", description := "d" }
  have hcreate : approvalServer.createTask {} "task" req
      = .ok ⟨Preset.fullReact.compiled tools true,
          (Preset.fullReact.compiled tools true).start "task" req⟩ := rfl
  have hdefault : approvalServer.taskServiceFor none
      = .ok (Preset.fullReact.compiled tools true) := rfl
  obtain ⟨l, c, hrun, hint, hcalls, hround, hrev⟩ := halted_history tools "task" req
  -- The endpoint resumes at the reviewer, which leaves the transcript as it is.
  obtain ⟨c₁, hb⟩ := Preset.exists_resumeReviewer tools true (p := .fullReact) (by decide) c "approve"
  obtain ⟨-, hv, -, hc₁⟩ := Preset.resumeReviewer_control hb
  have hmsgs : c₁.values.devMessages = c.values.devMessages := by
    simp [hv, reviewerResumeUpdate]
  have hround₁ : c₁.values.devRound = 1 := by
    simp [hv, reviewerResumeUpdate, hround]
  have hnext : c₁.next = some .developer := by
    rw [← Config.control_next, hc₁]
    exact if_neg (by simp [Config.control, TaskState.ledger, hrev])
  -- The developer is scheduled although its call is still unanswered.
  obtain ⟨e, c', hstep, -⟩ := Preset.developer_total (p := .fullReact)
    (w := World.agreeable) tools true hnext (Config.interrupt_eq_none (by rw [hc₁]; rfl)) rfl
  have hnode := Graph.node_eq_of_next hstep hnext
  refine ⟨_, _, ⟨_, c⟩, ⟨_, c₁⟩, hcreate, HttpStep.of_run hrun, hint, ?_, ?_,
    ⟨_, e, c', hstep, hnode, ?_⟩, ?_⟩
  · simp [Config.status, materializeStatus, hint]
  · rw [Server.resumeTask, Fallible.ok_bind hdefault]
    rw [hb]
    rfl
  · intro call hcall
    obtain ⟨call', hcalls', ⟨-, hconvo⟩ | ⟨hu, -⟩⟩ := Preset.developer_assembled hnext hstep
    · have hne : c₁.values.devMessages ≠ [] := by
        intro hnil
        rw [← hmsgs, hnil] at hcalls
        cases hcalls
      rw [hcalls', List.mem_singleton] at hcall
      rw [hcall, hconvo, assembledConvo_of_lt hne (by omega), hmsgs, hcalls]
    · cases hu
  · intro hanswered
    have hresolved := hanswered.resolved
    rw [hnext] at hresolved
    cases hresolved

end AgentRoom
