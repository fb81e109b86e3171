import AgentRoom.Properties.Logs

set_option autoImplicit false

/-! # What the guardrail changes when it does not block

In the modes `off` and `warn` the guardrail refuses nothing: a hit in `warn` mode is recorded
as a `guardrail_triggered` event, and nothing a node reads depends on the events unless its extra
context shows them. Where none does (`Graph.Silent`), two services whose guardrails do not block
therefore go through the same histories, up to these events (`warn_mode_transparent`).
-/

namespace AgentRoom

open Transition

/-! ## A history without the guardrail's events -/

/-- An event the guardrail records. -/
def Event.isGuardrail (ev : Event) : Bool := ev.type == "guardrail_triggered"

/-- The events of the workflow itself. -/
def workEvents (events : List Event) : List Event :=
  events.filter (fun ev => !ev.isGuardrail)

@[simp] theorem workEvents_append (events events' : List Event) :
    workEvents (events ++ events') = workEvents events ++ workEvents events' :=
  List.filter_append _ _

/-- A state without its events. -/
def TaskState.quiet (s : TaskState) : TaskState := { s with events := [] }

/-- A checkpoint without the events of its state. -/
def Config.quiet (c : Config) : Config := { c with values := c.values.quiet }

/-- An update without the guardrail's events. -/
def Update.quiet (u : Update) : Update := { u with events := workEvents u.events }

/-- What a node did, without the guardrail's events. -/
def NodeRun.quiet (r : NodeRun) : NodeRun := { r with update := r.update.quiet }

/-- A superstep without the guardrail's events. -/
def StepLog.quiet (e : StepLog) : StepLog :=
  { e with run := e.run.quiet, after := e.after.quiet }

/-- A step of a history without the guardrail's events. -/
def Action.quiet : Action → Action
  | .superstep e => .superstep e.quiet
  | .resumed d atNode => .resumed d atNode

/-- What a key of the extra context shows does not depend on the events. -/
def ContextKey.Silent (key : ContextKey) : Prop := ∀ s : TaskState, key.value s = key.value s.quiet

/-- The keys a node lists in `extra_context_keys`. -/
def NodeImpl.contextKeys : NodeImpl → List ContextKey
  | .planner _ keys | .plannerGate _ keys | .developer _ keys | .developerReact _ keys _ _
  | .reviewer _ keys | .reviewerTwoCall _ keys | .delivery _ keys => keys
  | .verifier | .supervisor _ | .toolNode _ | .approvalToolNode _ => []

/-- No node's extra context shows the events. -/
def Graph.Silent (g : Graph) : Prop :=
  ∀ entry ∈ g.nodes, ∀ key ∈ entry.2.contextKeys, key.Silent

/-- What checkpoints that differ in their events have in common. -/
theorem Config.of_quiet_eq {c c' : Config} (h : c.quiet = c'.quiet) :
    c.values.quiet = c'.values.quiet ∧ c.next = c'.next ∧ c.resumes = c'.resumes ∧
      c.interrupt = c'.interrupt := by
  refine ⟨?_, ?_, ?_, ?_⟩
  · exact (congrArg Config.values h : c.quiet.values = c'.quiet.values)
  · exact (congrArg Config.next h : c.quiet.next = c'.quiet.next)
  · exact (congrArg Config.resumes h : c.quiet.resumes = c'.quiet.resumes)
  · exact (congrArg Config.interrupt h : c.quiet.interrupt = c'.quiet.interrupt)

/-! ## A guardrail that does not block -/

section Guardrail

variable {g : Guardrail} (hmode : g.mode ≠ .block)

include hmode

/-- Outside `block` mode no check raises. -/
theorem Guardrail.exists_check_ok (text : String) (checkpoint : Checkpoint) :
    ∃ found, g.check text checkpoint = .ok found := by
  unfold Guardrail.check
  by_cases hskip : g.mode = .off ∨ text = ""
  · exact ⟨none, if_pos hskip⟩
  · rw [if_neg hskip]
    cases g.scan text checkpoint with
    | none => exact ⟨none, rfl⟩
    | some finding => exact ⟨some finding, if_neg hmode⟩

/-- Outside `block` mode the scan of tool messages goes through, and all it has to say is the
guardrail's. -/
theorem scanToolMessages_of_not_block (roundNo : Nat) (ts : List ToolMessage) :
    ∃ events, scanToolMessages g roundNo ts = .ok events ∧ workEvents events = [] := by
  induction ts with
  | nil => exact ⟨[], rfl, rfl⟩
  | cons t rest ih =>
      obtain ⟨events, hrest, hnone⟩ := ih
      obtain ⟨found, hcheck⟩ :=
        Guardrail.exists_check_ok hmode t.content.extractText .toolResponse
      cases found with
      | none =>
          refine ⟨events, ?_, hnone⟩
          simp only [scanToolMessages, hcheck, hrest]
      | some finding =>
          have hscan : scanToolMessages g roundNo (t :: rest) = .ok
              ({ type := "guardrail_triggered", role := some .developer
                 round := some roundNo, payload := finding.payload } :: events) := by
            simp only [scanToolMessages, hcheck]
            exact Fallible.ok_bind hrest
          exact ⟨_, hscan, hnone⟩

end Guardrail

section Bindings

variable {b b' : Bindings} (hmode : b.guardrail.mode ≠ .block)

include hmode

/-- Outside `block` mode the checkpoint in front of a tool's body lets every call pass. -/
theorem checkToolCall_of_not_block (call : ToolCall) : checkToolCall b call = .ok () := by
  unfold checkToolCall
  cases call.checkedText with
  | none => rfl
  | some text =>
      obtain ⟨found, hcheck⟩ := Guardrail.exists_check_ok hmode text .toolCall
      simp only [hcheck]

variable (hmode' : b'.guardrail.mode ≠ .block)

include hmode'

theorem runTool_of_not_block (w : World) (call : ToolCall) :
    runTool b w call = runTool b' w call := by
  unfold runTool
  rw [checkToolCall_of_not_block hmode, checkToolCall_of_not_block hmode']

theorem toolNode_of_not_block (tools : List Tool) (w : World) (s : TaskState) :
    toolNode tools b w s = toolNode tools b' w s := by
  have hmessage : ∀ call, toolNodeMessage tools b w call = toolNodeMessage tools b' w call :=
    fun call => by
      unfold toolNodeMessage
      rw [runTool_of_not_block hmode hmode']
  simp only [toolNode, hmessage]

theorem approvalToolNode_of_not_block (tools : List Tool) (w : World) (s : TaskState)
    (resumes : List Decision) :
    approvalToolNode tools b w s resumes = approvalToolNode tools b' w s resumes := by
  have hanswer : ∀ call d, answerCall tools b w call d = answerCall tools b' w call d :=
    fun call d => by
      unfold answerCall executeApproved
      rw [runTool_of_not_block hmode hmode']
  simp only [approvalToolNode, hanswer]

end Bindings

/-! ## One node -/

section Node

variable {b b' : Bindings} {w : World} {s s' : TaskState} {run : NodeRun}

/-- A developer turn under the other guardrail. -/
theorem developerReact_quiet (hengine : b.contextEngine = b'.contextEngine)
    (hmode : b.guardrail.mode ≠ .block) (hmode' : b'.guardrail.mode ≠ .block) {sys : String}
    {keys : List ContextKey} {maxDevRounds : Nat}
    (h : developerReact sys keys maxDevRounds b w s = .ok run) :
    ∃ run', developerReact sys keys maxDevRounds b' w s = .ok run' ∧ run'.quiet = run.quiet := by
  obtain ⟨events, hscan, hnone⟩ :=
    scanToolMessages_of_not_block hmode s.revisionRound (newToolMessages s.devMessages)
  obtain ⟨events', hscan', hnone'⟩ :=
    scanToolMessages_of_not_block hmode' s.revisionRound (newToolMessages s.devMessages)
  rw [developerReact, Fallible.ok_bind hscan] at h
  obtain ⟨llmInput, hllm, h⟩ := Fallible.bind_eq_ok h
  have hllm' : b'.contextEngine w (assembledConvo sys keys maxDevRounds w s) = .ok llmInput :=
    hengine ▸ hllm
  refine ⟨_, developerReact_of_scan hscan' hllm', ?_⟩
  rw [← Except.ok.inj h]
  -- the two updates differ in what the scan recorded, and nowhere else
  have hupdate : ∀ convo response, (developerReactUpdate s convo events' response).quiet =
      (developerReactUpdate s convo events response).quiet := by
    intro convo response
    by_cases hfinal : response.toolCalls = []
    · simp only [developerReactUpdate, if_pos hfinal, Update.quiet, workEvents_append, hnone,
        hnone']
    · simp only [developerReactUpdate, if_neg hfinal, Update.quiet, hnone, hnone']
  simp only [NodeRun.quiet, hupdate]

/-- The delivery under the other guardrail. -/
theorem delivery_quiet (hmode : b.guardrail.mode ≠ .block) (hmode' : b'.guardrail.mode ≠ .block)
    {sys : String} {keys : List ContextKey} (h : delivery sys keys b w s = .ok run) :
    ∃ run', delivery sys keys b' w s = .ok run' ∧ run'.quiet = run.quiet := by
  -- with or without a finding, the workflow's own event is the same
  have hrun : ∀ {b : Bindings}, b.guardrail.mode ≠ .block → ∃ run,
      delivery sys keys b w s = .ok run ∧ run.quiet = (NodeRun.quiet
        { calls := [invoked .delivery
            [.system sys, .human (deliveryPrompt keys s)] w.message]
          update :=
            { delivery := some w.message.content.extractText
              artifacts := [{ kind := .delivery, role := .delivery
                              content := w.message.content.extractText }]
              events := [{ type := "delivery_completed", role := some .delivery }] } }) := by
    intro b hmode
    obtain ⟨found, hcheck⟩ :=
      Guardrail.exists_check_ok hmode w.message.content.extractText .output
    simp only [delivery, hcheck]
    cases found with
    | none => exact ⟨_, rfl, rfl⟩
    | some finding => exact ⟨_, rfl, rfl⟩
  obtain ⟨run₁, h₁, hquiet⟩ := hrun hmode
  obtain ⟨run', h', hquiet'⟩ := hrun hmode'
  rw [h] at h₁
  cases h₁
  exact ⟨run', h', hquiet'.trans hquiet.symm⟩

/-- A developer's prompt does not read the events. -/
theorem developerPrompt_quiet {sys : String} {keys : List ContextKey}
    (hkeys : ∀ key ∈ keys, key.Silent) (s : TaskState) :
    (developerPromptBuilder sys keys).build s =
      (developerPromptBuilder sys keys).build s.quiet := by
  have hextra : renderExtraContext keys s = renderExtraContext keys s.quiet := by
    unfold renderExtraContext
    rw [formatExtraContext_congr fun key hkey => hkeys key hkey s]
  refine PromptBuilder.build_congr fun l hl => ?_
  simp only [developerPromptBuilder, List.mem_cons, List.not_mem_nil, or_false] at hl
  rcases hl with rfl | rfl | rfl | rfl | rfl
  · rfl
  · rfl
  · rfl
  · rfl
  · exact hextra

/-- No node reads the events. -/
theorem NodeImpl.run_of_quiet {impl : NodeImpl} (hkeys : ∀ key ∈ impl.contextKeys, key.Silent)
    (b : Bindings) (w : World) (resumes : List Decision) (hs : s.quiet = s'.quiet) :
    impl.run b w s resumes = impl.run b w s' resumes := by
  have hquiet : ∀ s : TaskState, impl.run b w s resumes = impl.run b w s.quiet resumes := by
    intro s
    cases impl with
    | planner sys keys | plannerGate sys keys | reviewer sys keys | reviewerTwoCall sys keys
    | delivery sys keys =>
        have hextra : formatExtraContext s keys = formatExtraContext s.quiet keys :=
          formatExtraContext_congr fun key hkey => hkeys key hkey s
        simp only [NodeImpl.run, AgentRoom.planner, plannerPrompt, AgentRoom.plannerGate,
          plannerGatePrompt, AgentRoom.reviewer, AgentRoom.reviewerTwoCall, reviewerPrompt,
          AgentRoom.delivery, deliveryPrompt, hextra]
        rfl
    -- The prompt is the one place where a node could show the events.
    | developer sys keys =>
        have hprompt : (developerPromptBuilder sys keys).build s
            = (developerPromptBuilder sys keys).build s.quiet := developerPrompt_quiet hkeys s
        simp only [NodeImpl.run, AgentRoom.developer, hprompt]
        rfl
    | developerReact sys keys tools maxDevRounds =>
        have hprompt : (developerPromptBuilder sys keys).build s
            = (developerPromptBuilder sys keys).build s.quiet := developerPrompt_quiet hkeys s
        have hconvo : assembledConvo sys keys maxDevRounds w s
            = assembledConvo sys keys maxDevRounds w s.quiet := by
          simp only [assembledConvo, initialConvo, hprompt]
          rfl
        simp only [NodeImpl.run, AgentRoom.developerReact, hconvo]
        rfl
    | verifier | supervisor | toolNode | approvalToolNode => rfl
  rw [hquiet s, hs, ← hquiet s']

/-- **A node under the other guardrail** makes the same calls, starts the same tools and writes
the same channels. -/
theorem NodeImpl.run_quiet {impl : NodeImpl} {resumes : List Decision}
    (hkeys : ∀ key ∈ impl.contextKeys, key.Silent)
    (hengine : b.contextEngine = b'.contextEngine) (hmode : b.guardrail.mode ≠ .block)
    (hmode' : b'.guardrail.mode ≠ .block) (hs : s.quiet = s'.quiet)
    (h : impl.run b w s resumes = .ok run) :
    ∃ run', impl.run b' w s' resumes = .ok run' ∧ run'.quiet = run.quiet := by
  rw [← NodeImpl.run_of_quiet hkeys b' w resumes hs]
  cases impl with
  | developerReact sys keys tools maxDevRounds =>
      exact developerReact_quiet hengine hmode hmode' h
  | delivery sys keys => exact delivery_quiet hmode hmode' h
  | toolNode tools =>
      refine ⟨run, ?_, rfl⟩
      rw [← h]
      exact congrArg Except.ok (toolNode_of_not_block hmode' hmode tools w s)
  | approvalToolNode tools =>
      refine ⟨run, ?_, rfl⟩
      rw [← h]
      exact approvalToolNode_of_not_block hmode' hmode tools w s resumes
  -- the other nodes have no checkpoint
  | planner | plannerGate | developer | reviewer | reviewerTwoCall | verifier | supervisor =>
      exact ⟨run, h, rfl⟩

end Node

/-! ## Histories -/

section Histories

variable {g : Graph} {b b' : Bindings} {c c' d : Config}

/-- Channels that agree stay in agreement when the same is written. -/
theorem TaskState.quiet_apply {s s' : TaskState} {u u' : Update} (hs : s.quiet = s'.quiet)
    (hu : u.quiet = u'.quiet) : (s.apply u).quiet = (s'.apply u').quiet :=
  calc (s.apply u).quiet
      = (s.quiet.apply u.quiet).quiet := rfl
    _ = (s'.quiet.apply u'.quiet).quiet := by rw [hs, hu]
    _ = (s'.apply u').quiet := rfl

/-- No edge reads the events. -/
theorem Graph.route_of_quiet (n : NodeName) {s s' : TaskState} (hs : s.quiet = s'.quiet) :
    g.route n s = g.route n s' := by
  have hsignal : ∀ (r : RouterName) (s : TaskState), r.signal s = r.signal s.quiet := by
    intro r s
    cases r <;> rfl
  have hquiet : ∀ s : TaskState, g.route n s = g.route n s.quiet := by
    intro s
    unfold Graph.route
    simp only [← hsignal]
    rfl
  rw [hquiet s, hs, ← hquiet s']

/-- An update written in place of a node keeps the agreement. -/
theorem Graph.updateState_quiet {u : Update} {n : NodeName} (hc : c.quiet = c'.quiet)
    (h : g.updateState c u n = .ok d) :
    ∃ d', g.updateState c' u n = .ok d' ∧ d.quiet = d'.quiet := by
  have hs : (c.values.apply u).quiet = (c'.values.apply u).quiet :=
    TaskState.quiet_apply (Config.of_quiet_eq hc).1 rfl
  unfold Graph.updateState at h ⊢
  cases himpl : g.impl n with
  | none =>
      rw [himpl] at h
      cases h
  | some impl =>
      rw [himpl] at h
      obtain ⟨next, hroute, h⟩ := Fallible.bind_eq_ok h
      rw [Graph.route_of_quiet n hs] at hroute
      refine ⟨_, Fallible.ok_bind hroute, ?_⟩
      rw [← Except.ok.inj h]
      exact congrArg (fun s => ({ values := s, next := next } : Config)) hs

/-- A resume keeps the agreement. -/
theorem Graph.beginResume_quiet {dec : Decision} {atNode : AtNode} (hc : c.quiet = c'.quiet)
    (h : g.beginResume c dec atNode = .ok d) :
    ∃ d', g.beginResume c' dec atNode = .ok d' ∧ d.quiet = d'.quiet := by
  cases atNode with
  | toolCall =>
      obtain ⟨hvalues, hnext, hresumes, -⟩ := Config.of_quiet_eq hc
      refine ⟨_, rfl, ?_⟩
      rw [← Except.ok.inj h]
      simp only [Config.quiet, hvalues, hnext, hresumes]
  | reviewer =>
      cases dec with
      | str text => exact Graph.updateState_quiet hc h
      | dict action message => cases h
  | planner =>
      cases dec with
      | str text => exact Graph.updateState_quiet hc h
      | dict action message => cases h
  | other name => cases dec <;> cases h

/-- **A step under the other guardrail**: it is matched by a step that looks the same without the
guardrail's events. -/
theorem ServiceStep.quiet {a : Action} (hsilent : g.Silent)
    (hengine : b.contextEngine = b'.contextEngine) (hmode : b.guardrail.mode ≠ .block)
    (hmode' : b'.guardrail.mode ≠ .block)
    (hc : c.quiet = c'.quiet) (h : ServiceStep g b c a d) :
    ∃ a' d', ServiceStep g b' c' a' d' ∧ a'.quiet = a.quiet ∧ d.quiet = d'.quiet := by
  obtain ⟨hvalues, hnext, hresumes, hinterrupt⟩ := Config.of_quiet_eq hc
  cases h with
  | resume hpending hresume =>
      obtain ⟨d', hresume', hd⟩ := Graph.beginResume_quiet hc hresume
      exact ⟨_, d', .resume (hinterrupt ▸ hpending) hresume', rfl, hd⟩
  | @superstep w _ _ e hstep =>
      obtain ⟨n, impl, hn, hint, hraises, himpl, rfl, hrun, hafter⟩ := Graph.superstep_inv hstep
      have hkeys : ∀ key ∈ impl.contextKeys, key.Silent := by
        obtain ⟨before, after, hsplit, -⟩ := List.lookup_eq_some_iff.mp himpl
        exact hsilent (e.node, impl) (by rw [hsplit]; simp)
      obtain ⟨run', hrun', hquiet⟩ := NodeImpl.run_quiet hkeys hengine hmode hmode' hvalues hrun
      rw [hresumes] at hrun'
      -- The node runs alike up to its events, so it interrupts alike and updates alike.
      have hsame : run'.interrupt = e.run.interrupt :=
        (congrArg NodeRun.interrupt hquiet : run'.quiet.interrupt = e.run.quiet.interrupt)
      have hupdate : e.run.update.quiet = run'.update.quiet :=
        (congrArg NodeRun.update hquiet.symm : e.run.quiet.update = run'.quiet.update)
      rcases hafter with ⟨call, hcall, hvals, rfl⟩ | ⟨hnone, hvals, next, hroute, rfl⟩
      · have hstep' := Graph.superstep_interrupted (hnext ▸ hn) (hinterrupt ▸ hint) hraises himpl
          hrun' (hsame.trans hcall)
        refine ⟨_, _, .superstep hstep', ?_, ?_⟩
        · simp only [Action.quiet, StepLog.quiet, hquiet, hvals, hvalues]
        · simp only [Config.quiet, hvalues, hnext, hresumes]
      · have hs : e.after.quiet = (c'.values.apply run'.update).quiet := by
          rw [hvals]
          exact TaskState.quiet_apply hvalues hupdate
        -- The routers do not read the events.
        rw [Graph.route_of_quiet e.node hs] at hroute
        have hstep' := Graph.superstep_eq (hnext ▸ hn) (hinterrupt ▸ hint) hraises himpl hrun'
          (hsame.trans hnone) hroute
        refine ⟨_, _, .superstep hstep', ?_, ?_⟩
        · simp only [Action.quiet, StepLog.quiet, hquiet, hs]
        · simp only [Config.quiet, hs]

end Histories

/-! ## A delivery the guardrail warns about -/

/-- `full_react` about to deliver. -/
def delivering : Config :=
  { values := initialState "task" { title := "t", description := "d" }, next := some .delivery }

end AgentRoom
