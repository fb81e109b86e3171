import AgentRoom.Properties.Compression
import AgentRoom.Properties.InFlight
import AgentRoom.Properties.Mediation

set_option autoImplicit false

/-! # The transcript over whole runs

Five nodes append to the developer's transcript. It is legal at every checkpoint but the ones
that schedule the tool node: there it is a legal list followed by the call the tool node is
about to answer. The message lists the developer hands to its context engine are legal, then,
in every history whose resumes are issued while the task waits for the user.
-/

namespace AgentRoom

open Transition Exchange

/-! ## What a developer turn assembles -/

theorem kind_emit (r : LayerRole) (parts : List String) : (emit r parts).kind = .plain := by
  cases r <;> rfl

/-- The rendered prompt, with or without memory, is plain. -/
theorem legal_injectMemory_build (curated prefetch : String) (pb : PromptBuilder)
    (s : TaskState) : LegalTranscript (injectMemory curated prefetch (pb.build s)) := by
  have hbuild : ∀ m ∈ pb.build s, m.kind = .plain := by
    intro m hm
    obtain ⟨r, parts, rfl⟩ := PromptBuilder.exists_emit_of_mem_build hm
    exact kind_emit r parts
  refine .of_plain fun m hm => ?_
  unfold injectMemory at hm
  split at hm
  · rename_i text rest heq
    dsimp only at hm
    split at hm
    · exact hbuild m hm
    · rcases List.mem_cons.mp hm with rfl | hm
      · rfl
      · exact hbuild m (by rw [heq]; exact List.mem_cons_of_mem _ hm)
  · exact hbuild m hm

/-- The budget note takes the place of the last human message or is one of its own. -/
theorem legal_appendBudgetNote {convo : List Message} (h : LegalTranscript convo) :
    LegalTranscript (appendBudgetNote convo) := by
  unfold appendBudgetNote
  split
  · exact h
  · rename_i text hlast
    obtain ⟨front, rfl⟩ := List.getLast?_eq_some_iff.mp hlast
    rw [List.dropLast_concat]
    have hfront : LegalTranscript front := h.left_iff.mpr (by simp [Message.isTool])
    exact hfront.concat rfl
  · exact h.concat rfl

/-- **From a legal transcript the developer assembles a legal list.** -/
theorem legal_assembledConvo {s : TaskState} (h : LegalTranscript s.devMessages) (sys : String)
    (keys : List ContextKey) (maxDevRounds : Nat) (w : World) :
    LegalTranscript (assembledConvo sys keys maxDevRounds w s) := by
  have hinitial : LegalTranscript (initialConvo sys keys w s) := by
    unfold initialConvo
    split
    · exact legal_injectMemory_build _ _ _ _
    · exact h
  unfold assembledConvo
  dsimp only
  split
  · exact legal_appendBudgetNote hinitial
  · exact hinitial

/-- A tool node's answer carries the id of its call. -/
theorem toolNodeMessage_toolCallId (tools : List Tool) (b : Bindings) (w : World)
    (call : ToolCall) : (toolNodeMessage tools b w call).toolCallId = call.id := by
  unfold toolNodeMessage
  split
  · split <;> rfl
  · rfl

/-! ## The shape of the transcript where a node is scheduled -/

/-- **The invariant**: a legal transcript, followed by the call that waits where the tool node is
scheduled. -/
structure Config.Orderly (c : Config) : Prop where
  settled : (∀ n, c.next ≠ some (.tools n)) → LegalTranscript c.values.devMessages
  pending : ∀ n, c.next = some (.tools n) → ∃ front m, c.values.devMessages = front ++ [.ai m] ∧
    m.toolCalls ≠ [] ∧ LegalTranscript front

namespace Config.Orderly

theorem of_settled {c : Config} (hnext : ∀ n, c.next ≠ some (.tools n))
    (h : LegalTranscript c.values.devMessages) : c.Orderly :=
  ⟨fun _ => h, fun n hn => absurd hn (hnext n)⟩

/-- A developer turn closes the transcript with its reply, which is scheduled to be answered if it
calls tools. -/
theorem turn {c' : Config} {front : List Message} {reply : AIMessage}
    (hmsgs : c'.values.devMessages = front ++ [.ai reply]) (hfront : LegalTranscript front)
    (hnext : (∃ n, c'.next = some (.tools n)) ↔ reply.toolCalls ≠ []) : c'.Orderly := by
  constructor
  · intro hn
    have hcalls : reply.toolCalls = [] := by
      by_contra hne
      obtain ⟨n, hn'⟩ := hnext.mpr hne
      exact hn n hn'
    rw [hmsgs]
    exact hfront.concat (by simp [Message.kind, hcalls])
  · intro n hn
    exact ⟨front, reply, hmsgs, hnext.mp ⟨n, hn⟩, hfront⟩

/-- The tool node answers the call that waits. -/
theorem answered {c c' : Config} (h : c.Orderly) {n : NodeName} (hn : c.next = some (.tools n))
    {answer : ToolCall → ToolMessage} (hid : ∀ call, (answer call).toolCallId = call.id)
    (hmsgs : c'.values.devMessages = c.values.devMessages ++
      (pendingCalls c.values.devMessages).map (fun call => .tool (answer call)))
    (hnext : ∀ n, c'.next ≠ some (.tools n)) : c'.Orderly := by
  obtain ⟨front, m, hpending, hcalls, hfront⟩ := h.pending n hn
  refine of_settled hnext ?_
  rw [hmsgs, hpending, pendingCalls_concat]
  have hkind : (Message.ai m).kind = .request (m.toolCalls.map ToolCall.id) := by
    simp [Message.kind, hcalls]
  refine hfront.answered hkind ?_
  simp [Message.toolCalls, Message.kind, hid]

/-- The other nodes append a note to a settled transcript, or nothing. -/
theorem noted {c c' : Config} (h : c.Orderly) (hn : ∀ n, c.next ≠ some (.tools n))
    {msgs : List Message} (hmsgs : c'.values.devMessages = c.values.devMessages ++ msgs)
    (hnote : msgs = [] ∨ ∃ text, msgs = [.human text])
    (hnext : ∀ n, c'.next ≠ some (.tools n)) : c'.Orderly := by
  refine of_settled hnext ?_
  rw [hmsgs]
  rcases hnote with rfl | ⟨text, rfl⟩
  · rw [List.append_nil]
    exact h.settled hn
  · exact (h.settled hn).concat rfl

end Config.Orderly

namespace Control

/-- Only the developer hands over to the tool node. -/
theorem step_next_ne_tools {p : Preset} {x : Choice} {c : Control} {n : NodeName}
    (hn : c.next = some n) (hdev : n ≠ .developer) (htools : ∀ m, n ≠ .tools m) (m : NodeName) :
    (c.step p x).next ≠ some (.tools m) := by
  have hout := outcome_step p x c
  generalize c.step p x = c' at hout ⊢
  cases hout <;> simp_all

end Control

namespace Preset

variable {p : Preset} {tools : List Tool} {b : Bindings}

/-- **Every superstep keeps the transcript in order.** -/
theorem orderly_superstep (hu : p.usesTools = true) {w : World} {c c' : Config} {e : StepLog}
    (hc : c.Orderly) (h : (p.compiled tools false).superstep b w c = .ok (e, c')) :
    c'.Orderly := by
  have hctl := superstep_control h
  obtain ⟨hquiet, -, hvalues⟩ := superstep_awake h
  obtain ⟨n, impl, hn, -, -, himpl, -, hrun, -⟩ := Graph.superstep_inv h
  have hmsgs : c'.values.devMessages = c.values.devMessages ++ e.run.update.devMessages := by
    rw [hvalues, TaskState.apply_devMessages]
  cases n with
  | developer =>
      obtain ⟨-, rfl⟩ | ⟨hplain, -⟩ := impl_developer himpl
      · obtain ⟨convo, events, llmInput, hconvo, hturn⟩ := developerReact_ok hrun
        have hlegal : LegalTranscript c.values.devMessages := hc.settled (by simp [hn])
        -- the first turn persists what it has assembled
        have hfront : ∃ front, c'.values.devMessages = front ++ [.ai w.message] ∧
            LegalTranscript front := by
          rw [hmsgs, hturn]
          by_cases hs : c.values.devMessages = []
          · refine ⟨convo, ?_, ?_⟩
            · rw [hs, List.nil_append]
              exact developerReactUpdate_devMessages hs _ _ _
            · rw [hconvo]
              exact legal_assembledConvo hlegal _ _ _ _
          · refine ⟨c.values.devMessages, ?_, hlegal⟩
            by_cases hcalls : w.message.toolCalls = [] <;> simp [developerReactUpdate, hs, hcalls]
        obtain ⟨front, hfront, hlegal'⟩ := hfront
        refine .turn hfront hlegal' ?_
        have hcalls : e.run.choice.calls = decide (w.message.toolCalls ≠ []) := by
          rw [hturn, NodeRun.choice]
          simp only [pendingCalls_developerReactUpdate]
        have hnext : c'.next = if w.message.toolCalls ≠ [] then some (.tools .developer)
            else p.afterDeveloper := by
          rw [← Config.control_next, hctl, Control.step_developer hn, Ledger.goto_next, hu, hcalls]
          simp
        rw [hnext]
        split_ifs with hcalls
        · simpa using hcalls
        · cases p <;> simpa [afterDeveloper] using hcalls
      · rw [hu] at hplain
        cases hplain
  | tools m =>
      obtain ⟨-, rfl, rfl⟩ := impl_tools himpl
      have hrun' : toolNode tools b w c.values = e.run := Except.ok.inj hrun
      rw [← hrun'] at hmsgs
      refine hc.answered hn (toolNodeMessage_toolCallId tools b w) hmsgs (fun m => ?_)
      rw [← Config.control_next, hctl, Control.step_tools hn]
      simp [NodeRun.choice, hquiet]
  | planner | verify | supervisor | reviewer | delivery =>
      refine hc.noted (by simp [hn]) hmsgs ?_ (fun m => ?_)
      · exact appends_note himpl (by simp) (by simp) (appends_of_run hrun)
      · rw [← Config.control_next, hctl]
        exact Control.step_next_ne_tools hn (by simp) (by simp) m

/-- A resume leaves the transcript as it is, and does not schedule the tool node. -/
theorem orderly_resumed (hu : p.usesTools = true) {c c' : Config} (hc : c.Orderly)
    (hn : c.next = none) (hmsgs : c'.values.devMessages = c.values.devMessages)
    (hnext : c'.control = c.control.resumeReviewer p ∨ c'.control = c.control.resumePlanner p) :
    c'.Orderly := by
  have hgate : p ≠ .plannerGate := by
    rintro rfl
    cases hu
  refine hc.noted (by simp [hn]) (by simpa using hmsgs) (.inl rfl) (fun m => ?_)
  rw [← Config.control_next]
  rcases hnext with hnext | hnext <;> rw [hnext]
  · simp only [Control.resumeReviewer, Ledger.goto_next, Ledger.afterReview]
    split <;> simp
  · simp [Control.resumePlanner, Ledger.afterPlanner_of_ne hgate]

/-- **Every checkpoint is in order**, in a history whose resumes are issued while the task waits for
the user. -/
theorem orderly_of_run (hu : p.usesTools = true) {taskId : String} {req : TaskRequest}
    {h : List Action} {c : Config}
    (hrun : Run (PatientStep (p.compiled tools false) b)
      ((p.compiled tools false).start taskId req) h c) : c.Orderly := by
  have hawake : ∀ {h : List Action} {c : Config}, Run (PatientStep (p.compiled tools false) b)
      ((p.compiled tools false).start taskId req) h c → c.interrupt = none := fun hrun =>
    awake_of_run (hrun.mono (fun _ _ _ hs => hs.1)) rfl
  induction hrun with
  | refl => exact .of_settled (fun n => by cases p <;> simp [Graph.start, compiled, delivers]) .nil
  | @snoc c c' h a hrun hs ih =>
      obtain ⟨hs, hpatient⟩ := hs
      -- a task that waits for the user has nothing scheduled
      have hend : ∀ d atNode, a = .resumed d atNode → c.next = none := by
        intro d atNode ha
        by_contra hne
        have hstatus := (Control.InFlight.of_run hrun).status hne (hawake hrun)
        rw [hpatient d atNode ha] at hstatus
        cases hstatus
      cases serviceStep_served hs with
      | superstep hstep _ => exact orderly_superstep hu ih hstep
      | atReviewer _ hvalues hc' =>
          refine orderly_resumed hu ih (hend _ _ rfl) ?_ (.inl hc')
          rw [hvalues]
          simp [reviewerResumeUpdate]
      | atPlanner _ hvalues hc' =>
          refine orderly_resumed hu ih (hend _ _ rfl) ?_ (.inr hc')
          rw [hvalues]
          simp [plannerResumeUpdate]
      | atToolCall hint _ _ _ =>
          rw [hawake hrun] at hint
          cases hint

end Preset

/-- **What the developer hands to its context engine is legal.** In every history of a tool-using
preset without approvals, whose resumes are issued while the task waits for the user: whenever the
developer is scheduled, in whichever world and whatever its prompt and its limit, the list it
assembles is legal. -/
theorem developer_input_legal {p : Preset} (hu : p.usesTools = true) {tools : List Tool}
    {b : Bindings} {taskId : String} {req : TaskRequest} {h : List Action} {c : Config}
    (hrun : Run (PatientStep (p.compiled tools false) b)
      ((p.compiled tools false).start taskId req) h c)
    (hnext : c.next = some .developer) (sys : String) (keys : List ContextKey)
    (maxDevRounds : Nat) (w : World) :
    LegalTranscript (assembledConvo sys keys maxDevRounds w c.values) := by
  have hlegal := (Preset.orderly_of_run hu hrun).settled (by simp [hnext])
  exact legal_assembledConvo hlegal _ _ _ _

/-- A developer that has called a tool and got its result. -/
theorem developer_input_legal_after_tools :
    ∃ c : Config, c.next = some .developer ∧ c.values.devMessages ≠ [] ∧
      LegalTranscript (assembledConvo developerSystemWithTools [] 8 .agreeable c.values) := by
  have hplay : ((Preset.fullReact.compiled Preset.builtinDevTools false).start "task"
      { title := "t", description := "d" }).control.play .fullReact
        ([{}, { calls := true }, {}].map .node)
          = some ([.planner, .developer, .tools .developer], _) := rfl
  obtain ⟨l, c, hrun, hc, -⟩ := Preset.exists_honest_run (by decide) hplay
  have htranscript : c.control.transcript = true := congrArg (fun k => k.transcript) hc
  have hnext : c.next = some .developer := congrArg Control.next hc
  refine ⟨c, hnext, by simpa [Config.control, TaskState.ledger] using htranscript, ?_⟩
  exact developer_input_legal (p := .fullReact) rfl (patient_of_run hrun) hnext _ _ _ _

end AgentRoom
