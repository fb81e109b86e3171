import AgentRoom.Compiled
import AgentRoom.Properties.SlidingWindow
import AgentRoom.Simulation

set_option autoImplicit false

/-! # The channels that only grow

The artifacts, the user's directives and the developer's transcript are appended to and never
rewritten; the events are appended to under a ceiling. After any history a snapshot therefore
shows exactly what was written on the way (`snapshot_logs`), and the transcript a tool-using
developer assembles for its model is continued, never rewritten, by every later turn
(`transcript_continued`). What the context engine then makes of the list is not meant here.
-/

namespace AgentRoom

open Transition

/-! ## What a step writes -/

/-- The update a step writes, if it writes one. -/
def Action.written : Action → Option Update
  -- the writes of an interrupted node are discarded
  | .superstep e => if e.run.interrupt.isSome then none else some e.run.update
  | .resumed (.str text) .reviewer => some (reviewerResumeUpdate text)
  | .resumed (.str text) .planner => some (plannerResumeUpdate text)
  | .resumed _ _ => none

/-- What a step appends to a channel. -/
def Action.appends {α : Type*} (channel : Update → List α) (a : Action) : List α :=
  (a.written.map channel).getD []

/-- The events a step records. -/
def Action.recorded (a : Action) : List Event := a.appends Update.events

/-- The events a history records. -/
def recordedIn (h : List Action) : List Event := h.flatMap Action.recorded

section Steps

variable {g : Graph} {b : Bindings} {c c' d : Config} {a : Action}

/-- **A step writes its update and nothing else.** -/
theorem ServiceStep.values (h : ServiceStep g b c a d) :
    d.values = (a.written.map c.values.apply).getD c.values := by
  cases h with
  | superstep hstep =>
      obtain ⟨n, impl, -, -, -, -, -, -, ⟨call, hcall, -, rfl⟩ | ⟨hnone, hafter, next, -, rfl⟩⟩ :=
        Graph.superstep_inv hstep
      · simp [Action.written, hcall]
      · simp [Action.written, hnone, hafter]
  | @resume _ _ dec atNode hpending hresume =>
      cases atNode with
      | toolCall =>
          cases hresume
          cases dec <;> rfl
      | reviewer =>
          cases dec with
          | str text => exact (Graph.updateState_inv hresume).1
          | dict action message => cases hresume
      | planner =>
          cases dec with
          | str text => exact (Graph.updateState_inv hresume).1
          | dict action message => cases hresume
      | other name => cases dec <;> cases hresume

/-- A channel with the `add` reducer grows by what the step appends. -/
theorem ServiceStep.appends {α : Type*} {channel : TaskState → List α} {entry : Update → List α}
    (happly : ∀ s u, channel (s.apply u) = channel s ++ entry u) (h : ServiceStep g b c a d) :
    channel d.values = channel c.values ++ a.appends entry := by
  rw [h.values, Action.appends]
  cases a.written with
  | none => exact (List.append_nil _).symm
  | some u => exact happly _ _

/-- **A channel with the `add` reducer is a log** of what a history appends to it. -/
theorem channel_of_run {α : Type*} {channel : TaskState → List α} {entry : Update → List α}
    (happly : ∀ s u, channel (s.apply u) = channel s ++ entry u) {h : List Action}
    (hrun : Run (ServiceStep g b) c h d) :
    channel d.values = channel c.values ++ h.flatMap (Action.appends entry) :=
  hrun.accumulates (fun c => channel c.values) (Action.appends entry)
    (fun _ _ _ hstep => hstep.appends happly)

theorem devMessages_of_run {h : List Action} (hrun : Run (ServiceStep g b) c h d) :
    d.values.devMessages =
      c.values.devMessages ++ h.flatMap (Action.appends Update.devMessages) :=
  channel_of_run (fun s u => TaskState.apply_devMessages s u) hrun

/-- The events are the most recent of all that were recorded. -/
theorem recorded_of_run {h : List Action} (hrun : Run (ServiceStep g b) c h d)
    (hfresh : c.values.events = []) :
    d.values.events = (recordedIn h).rtake eventsSoftCap := by
  refine hrun.log_invariant
    (P := fun h c => c.values.events = (recordedIn h).rtake eventsSoftCap) ?_ ?_
  · intro h c a c' hevents hstep
    have hall : recordedIn (h ++ [a]) = recordedIn h ++ a.recorded := by simp [recordedIn]
    rw [hstep.values, hall, Action.recorded, Action.appends]
    cases a.written with
    | none =>
        show c.values.events = (recordedIn h ++ []).rtake eventsSoftCap
        rw [hevents, List.append_nil]
    | some u =>
        have happly : (c.values.apply u).events
            = Window.push eventsSoftCap c.values.events u.events :=
          cappedAppend_eq_push (by decide) _ _
        show (c.values.apply u).events = (recordedIn h ++ u.events).rtake eventsSoftCap
        rw [happly, hevents, Window.push_rtake]
  · rw [hfresh]
    rfl

end Steps

/-! ## Who writes what -/

/-- A reviewer, of either kind. -/
def NodeImpl.isReviewer : NodeImpl → Bool
  | .reviewer _ _ | .reviewerTwoCall _ _ => true
  | _ => false

/-- What every node keeps to: the directives are the user's, the rounds the reviewers', and only
a tool node waits for a decision. -/
structure NodeImpl.KeepsTo (impl : NodeImpl) (s : TaskState) (run : NodeRun) : Prop where
  userDirectives : run.update.userDirectives = []
  revisionRound : run.update.revisionRound =
    if impl.isReviewer then some (s.revisionRound + 1) else none
  awake : impl.isReviewer = true → run.interrupt = none

theorem NodeImpl.run_keepsTo {impl : NodeImpl} {b : Bindings} {w : World} {s : TaskState}
    {resumes : List Decision} {run : NodeRun} (h : impl.run b w s resumes = .ok run) :
    impl.KeepsTo s run := by
  cases impl with
  | planner sys keys =>
      cases h
      by_cases hd : s.devMessages = [] <;>
        constructor <;> simp [AgentRoom.planner, hd, NodeImpl.isReviewer]
  | plannerGate sys keys =>
      cases h
      by_cases hq : w.gate.openQuestions = [] <;>
        constructor <;> simp [AgentRoom.plannerGate, hq, NodeImpl.isReviewer]
  | developerReact sys keys tools maxDevRounds =>
      obtain ⟨convo, events, llmInput, -, rfl⟩ := developerReact_ok h
      by_cases hfinal : w.message.toolCalls = [] <;>
        constructor <;> simp [developerReactUpdate, hfinal, NodeImpl.isReviewer]
  | reviewer sys keys =>
      cases h
      by_cases hd : w.review.decision = .revisionRequired ∧ s.devMessages ≠ [] <;>
        constructor <;> simp [AgentRoom.reviewer, hd, NodeImpl.isReviewer]
  | reviewerTwoCall sys keys =>
      cases h
      by_cases hf : focusEscalates w.focus s = true <;>
        constructor <;> simp [AgentRoom.reviewerTwoCall, hf, NodeImpl.isReviewer]
  | delivery sys keys =>
      obtain ⟨calls, findings, -, rfl⟩ := delivery_ok h
      exact ⟨rfl, rfl, Bool.noConfusion⟩
  | verifier =>
      cases h
      by_cases ho : Py.truthy s.verifyCommand = true
      · by_cases hd : s.devMessages = [] <;>
          cases hp : (runVerifyCommand w.oracle (s.verifyRound + 1)).passed <;>
          constructor <;> simp [AgentRoom.verifier, ho, hd, hp, NodeImpl.isReviewer]
      · constructor <;> simp [AgentRoom.verifier, ho, NodeImpl.isReviewer]
  | approvalToolNode tools =>
      rcases approvalToolNode_ok h with ⟨call, -, rfl⟩ | ⟨answers, -, -, rfl⟩ <;>
        exact ⟨rfl, rfl, Bool.noConfusion⟩
  | developer | supervisor | toolNode =>
      cases h
      exact ⟨rfl, rfl, Bool.noConfusion⟩

/-- The text of a decision that is applied to the state. -/
def Action.directive? : Action → Option String
  | .resumed (.str text) .reviewer | .resumed (.str text) .planner => some text
  | _ => none

/-- A superstep of a reviewer. -/
def Graph.reviewed (g : Graph) (a : Action) : Bool :=
  match a with
  | .superstep e => ((g.impl e.node).map NodeImpl.isReviewer).getD false
  | .resumed _ _ => false

section Snapshot

variable {g : Graph} {b : Bindings} {c d : Config} {a : Action}

/-- The directives a step appends are the user's. -/
theorem ServiceStep.directives (h : ServiceStep g b c a d) :
    a.appends Update.userDirectives = a.directive?.toList := by
  cases h with
  | @resume _ _ dec atNode => cases dec <;> cases atNode <;> rfl
  | @superstep w _ _ e hstep =>
      obtain ⟨n, impl, -, -, -, -, -, hrun, -⟩ := Graph.superstep_inv hstep
      have hnone := (NodeImpl.run_keepsTo hrun).userDirectives
      by_cases hi : e.run.interrupt.isSome = true
      · simp [Action.appends, Action.written, Action.directive?, hi]
      · simpa [Action.appends, Action.written, Action.directive?, hi] using hnone

/-- The rounds count the reviews. -/
theorem ServiceStep.rounds (h : ServiceStep g b c a d) :
    d.values.revisionRound = c.values.revisionRound + if g.reviewed a then 1 else 0 := by
  rw [h.values]
  cases h with
  | @resume _ _ dec atNode => cases dec <;> cases atNode <;> rfl
  | @superstep w _ _ e hstep =>
      obtain ⟨n, impl, -, -, -, himpl, rfl, hrun, -⟩ := Graph.superstep_inv hstep
      obtain ⟨-, hround, hawake⟩ := NodeImpl.run_keepsTo hrun
      have hreviewed : g.reviewed (.superstep e) = impl.isReviewer := by
        simp only [Graph.reviewed, himpl, Option.map_some, Option.getD_some]
      rw [hreviewed]
      cases hr : impl.isReviewer with
      | true =>
          rw [hr, if_pos rfl] at hround
          simp [Action.written, hawake hr, hround]
      | false =>
          rw [hr] at hround
          by_cases hi : e.run.interrupt.isSome = true
          · simp [Action.written, hi]
          · simp [Action.written, hi, hround]

/-- **A snapshot is an exact log.** After any history of a task, over any graph with one way out of
each node and whatever the model and the tools answered: its artifacts are all that were written, in
order; its events are the most recent `EVENTS_SOFT_CAP` of all that were recorded; its directives are
the user's decisions, each once and in order; and its rounds count the reviews. -/
theorem snapshot_logs {taskId : String} {req : TaskRequest} {h : List Action}
    (hrun : Run (ServiceStep g b) (g.start taskId req) h d) :
    (materializeResult taskId d).artifacts = h.flatMap (Action.appends Update.artifacts) ∧
      (materializeResult taskId d).events = (recordedIn h).rtake eventsSoftCap ∧
      d.values.userDirectives = h.filterMap Action.directive? ∧
      (materializeResult taskId d).rounds = h.countP g.reviewed := by
  refine ⟨?_, recorded_of_run hrun rfl, ?_, ?_⟩
  · have happly : ∀ (s : TaskState) (u : Update),
        (s.apply u).artifacts = s.artifacts ++ u.artifacts := fun _ _ => rfl
    exact channel_of_run happly hrun
  · have hlog := hrun.accumulates (fun c => c.values.userDirectives)
      (fun a => a.directive?.toList) (fun s a t hstep => by
        rw [← hstep.directives]
        exact hstep.appends (fun s u => TaskState.apply_userDirectives s u))
    rw [List.filterMap_eq_flatMap_toList]
    exact hlog
  · refine hrun.log_invariant
      (P := fun h c => c.values.revisionRound = h.countP g.reviewed) ?_ rfl
    intro h c a c' hcount hstep
    calc c'.values.revisionRound
        = h.countP g.reviewed + if g.reviewed a then 1 else 0 := by rw [hstep.rounds, hcount]
      _ = (h ++ [a]).countP g.reviewed := by rw [List.countP_append, List.countP_singleton]

end Snapshot

/-- A history of one superstep, the review of an approving reviewer. -/
theorem snapshot_logs_reviewed :
    ∃ h d, Run (ServiceStep (Preset.devReview.compiled [] false) {})
        ((Preset.devReview.compiled [] false).start "task" { title := "t", description := "d" }) h d ∧
      (materializeResult "task" d).rounds = 1 ∧ h.countP (Graph.reviewed
        (Preset.devReview.compiled [] false)) = 1 ∧
      (materializeResult "task" d).artifacts.map Artifact.content = ["done", "fine"] := by
  let g := Preset.devReview.compiled [] false
  let s₀ := initialState "task" { title := "t", description := "d" }
  let s₁ := s₀.apply (developer developerSystem [] World.agreeable s₀).update
  have hdeveloped := Graph.superstep_eq (g := g) (b := {}) (w := World.agreeable)
    (c := g.start "task" { title := "t", description := "d" }) (n := .developer)
    rfl rfl rfl rfl rfl rfl rfl
  have hreviewed := Graph.superstep_eq (g := g) (b := {}) (w := World.agreeable)
    (c := { values := s₁, next := some .reviewer }) (n := .reviewer) rfl rfl rfl rfl rfl rfl rfl
  have hrun := (Run.single (ServiceStep.superstep hdeveloped)).snoc (.superstep hreviewed)
  obtain ⟨hartifacts, -, -, hrounds⟩ := snapshot_logs hrun
  refine ⟨_, _, hrun, rfl, ?_, ?_⟩
  · rw [← hrounds]
    rfl
  · rw [hartifacts]
    rfl

/-! ## The transcript a developer assembles -/

section Transcript

variable {g : Graph} {b : Bindings} {c d : Config}

/-- The budget note is put behind everything up to the last reply. -/
theorem prefix_appendBudgetNote {front convo : List Message} {reply : AIMessage}
    (h : front ++ [.ai reply] <+: convo) : front ++ [.ai reply] <+: appendBudgetNote convo := by
  obtain ⟨rest, rfl⟩ := h
  unfold appendBudgetNote
  rcases List.eq_nil_or_concat rest with rfl | ⟨rest, m, rfl⟩
  · -- the reply itself is the last message, and no human one
    rw [List.append_nil, List.getLast?_concat]
    exact List.prefix_append _ _
  · rw [List.concat_eq_append, ← List.append_assoc, List.getLast?_concat, List.dropLast_concat]
    cases m with
    | human text =>
        dsimp only
        rw [List.append_assoc]
        exact List.prefix_append _ _
    | system text | ai message | tool message =>
        dsimp only
        rw [List.append_assoc, List.append_assoc]
        exact List.prefix_append _ _

/-- A developer's turn with tools leaves its input and its reply as the transcript. -/
theorem transcript_of_turn {sys : String} {keys : List ContextKey} {tools : List Tool}
    {maxDevRounds : Nat} {w : World} {e : StepLog} {call : LlmCall}
    (hstep : g.superstep b w c = .ok (e, d))
    (himpl : g.impl e.node = some (.developerReact sys keys tools maxDevRounds))
    (hcall : call ∈ e.run.calls) (htools : call.toolsBound = true) :
    ∃ reply, call.reply = some reply ∧ d.values.devMessages = call.assembled ++ [.ai reply] := by
  obtain ⟨n, impl, -, -, -, himpl', rfl, hrun, hafter⟩ := Graph.superstep_inv hstep
  obtain rfl := Option.some.inj (himpl'.symm.trans himpl)
  obtain ⟨convo, events, llmInput, hconvo, hturn⟩ := developerReact_ok hrun
  rw [hturn, List.mem_singleton] at hcall
  subst hcall
  have hlt : c.values.devRound < maxDevRounds := of_decide_eq_true htools
  have hvalues : d.values = c.values.apply (developerReactUpdate c.values convo events w.message) := by
    rcases hafter with ⟨call, hi, -, -⟩ | ⟨-, hafter, next, -, rfl⟩
    · rw [hturn] at hi
      cases hi
    · rw [hafter, hturn]
  refine ⟨w.message, rfl, ?_⟩
  rw [hvalues, TaskState.apply_devMessages]
  -- The first turn writes its prompt along with the reply, a later one the reply alone.
  by_cases hfirst : c.values.devMessages = []
  · rw [developerReactUpdate_devMessages hfirst, hfirst, List.nil_append]
  · have hinput : convo = c.values.devMessages := by
      rw [hconvo, assembledConvo_of_lt hfirst hlt]
    have hwritten : (developerReactUpdate c.values convo events w.message).devMessages
        = [.ai w.message] := by
      by_cases hc : w.message.toolCalls = [] <;> simp [developerReactUpdate, hfirst, hc]
    rw [hwritten, hinput]

/-- A later turn starts from the transcript it finds. -/
theorem prefix_of_turn {front : List Message} {reply : AIMessage} {sys : String}
    {keys : List ContextKey} {tools : List Tool} {maxDevRounds : Nat} {w : World} {e : StepLog}
    {call : LlmCall} (hfront : front ++ [.ai reply] <+: c.values.devMessages)
    (hstep : g.superstep b w c = .ok (e, d))
    (himpl : g.impl e.node = some (.developerReact sys keys tools maxDevRounds))
    (hcall : call ∈ e.run.calls) : front ++ [.ai reply] <+: call.assembled := by
  obtain ⟨n, impl, -, -, -, himpl', rfl, hrun, -⟩ := Graph.superstep_inv hstep
  obtain rfl := Option.some.inj (himpl'.symm.trans himpl)
  obtain ⟨convo, events, llmInput, hconvo, hturn⟩ := developerReact_ok hrun
  rw [hturn, List.mem_singleton] at hcall
  subst hcall
  have hne : c.values.devMessages ≠ [] := by
    intro hnil
    rw [hnil, List.prefix_nil] at hfront
    simp at hfront
  have hinitial : initialConvo sys keys w c.values = c.values.devMessages := if_neg hne
  show front ++ [.ai reply] <+: convo
  rw [hconvo, assembledConvo, hinitial]
  split
  · exact prefix_appendBudgetNote hfront
  · exact hfront

/-- **The transcript is continued, never rewritten.** In any history of any graph with one way out
of each node, the list a tool-using developer assembles for the model (before the context engine)
with its tools bound, and the reply it gets, stand word for word at the front of every list that a
tool-using developer assembles later on, across reviews, re-plans, resumes and the turn that is
told its tool budget is used up. -/
theorem transcript_continued {h₁ h₂ h₃ : List Action} {e₁ e₂ : StepLog} {call₁ call₂ : LlmCall}
    {sys₁ sys₂ : String} {keys₁ keys₂ : List ContextKey} {tools₁ tools₂ : List Tool}
    {rounds₁ rounds₂ : Nat}
    (hrun : Run (ServiceStep g b) c
      (h₁ ++ .superstep e₁ :: (h₂ ++ .superstep e₂ :: h₃)) d)
    (himpl₁ : g.impl e₁.node = some (.developerReact sys₁ keys₁ tools₁ rounds₁))
    (himpl₂ : g.impl e₂.node = some (.developerReact sys₂ keys₂ tools₂ rounds₂))
    (hcall₁ : call₁ ∈ e₁.run.calls) (hcall₂ : call₂ ∈ e₂.run.calls)
    (htools : call₁.toolsBound = true) :
    ∃ reply, call₁.reply = some reply ∧
      call₁.assembled ++ [.ai reply] <+: call₂.assembled := by
  obtain ⟨c₁, -, hrest⟩ := hrun.split
  obtain ⟨c₂, hfirst, hrest⟩ := hrest.cons_inv
  obtain ⟨c₃, hbetween, hrest⟩ := hrest.split
  obtain ⟨c₄, hsecond, -⟩ := hrest.cons_inv
  cases hfirst with
  | superstep hstep₁ =>
      cases hsecond with
      | superstep hstep₂ =>
          obtain ⟨reply, hreply, htranscript⟩ := transcript_of_turn hstep₁ himpl₁ hcall₁ htools
          refine ⟨reply, hreply, prefix_of_turn ?_ hstep₂ himpl₂ hcall₂⟩
          rw [devMessages_of_run hbetween, htranscript]
          exact List.prefix_append _ _

end Transcript

/-- A world whose reviewer asks for a revision. -/
def World.demanding : World :=
  { World.agreeable with review := { decision := .revisionRequired, feedback := "again" } }

/-- A turn of the developer that ends without tool calls, in a fresh task or after a review. -/
theorem demanding_turn (s : TaskState) : ∃ e, e.node = .developer ∧
    (Preset.fullReact.compiled [] false).superstep {} .demanding
      { values := s, next := some .developer } = .ok (e, { values := e.after, next := some .reviewer }) ∧
    ∃ call, e.run.calls = [call] ∧ call.toolsBound = decide (s.devRound < 8) ∧
      e.after = s.apply (developerReactUpdate s call.assembled [] World.demanding.message) := by
  let convo := assembledConvo developerSystemWithTools [] 8 .demanding s
  let s' := s.apply (developerReactUpdate s convo [] World.demanding.message)
  have hrun := developerReact_default developerSystemWithTools [] 8 .demanding s
  have hroute : (Preset.fullReact.compiled [] false).route .developer s' = .ok (some .reviewer) :=
    Preset.route_developed _ _ _ rfl _ _ _
  have hstep := Graph.superstep_eq (g := Preset.fullReact.compiled [] false) (b := {})
    (w := .demanding) (c := { values := s, next := some .developer }) rfl rfl rfl rfl hrun rfl hroute
  exact ⟨_, rfl, hstep, _, rfl, rfl, rfl⟩

/-- Sent back by the reviewer, the developer goes on from its first turn. -/
theorem transcript_continued_demanding :
    ∃ e₁ e₂ e₃ d call₁ call₂ reply,
      Run (ServiceStep (Preset.fullReact.compiled [] false) {})
        { values := initialState "task" { title := "t", description := "d" }
          next := some .developer }
        [.superstep e₁, .superstep e₂, .superstep e₃] d ∧
      call₁ ∈ e₁.run.calls ∧ call₂ ∈ e₃.run.calls ∧ call₁.reply = some reply ∧
      call₁.assembled ++ [.ai reply] <+: call₂.assembled := by
  let s₀ := initialState "task" { title := "t", description := "d" }
  obtain ⟨e₁, hnode₁, hstep₁, call₁, hcalls₁, htools, hafter⟩ := demanding_turn s₀
  -- The reviewer asks for a revision, so that the developer has a second turn.
  let s₂ := e₁.after.apply (reviewer reviewerSystem [] .demanding e₁.after).update
  have hreview : s₂.review = some World.demanding.review ∧ s₂.revisionRound = 1 ∧
      s₂.maxRevisions = 2 := by
    have hbefore : e₁.after.revisionRound = 0 ∧ e₁.after.maxRevisions = 2 := by
      rw [hafter]
      exact ⟨rfl, rfl⟩
    have hwritten : (reviewer reviewerSystem [] .demanding e₁.after).update.review
        = some (some World.demanding.review) ∧
        (reviewer reviewerSystem [] .demanding e₁.after).update.revisionRound
          = some (e₁.after.revisionRound + 1) := by
      simp only [reviewer]
      split <;> exact ⟨rfl, rfl⟩
    refine ⟨?_, ?_, hbefore.2⟩
    · rw [TaskState.apply_review, hwritten.1]
      rfl
    · rw [TaskState.apply_revisionRound, hwritten.2, hbefore.1]
      rfl
  have hsignal : RouterName.reviewRouter.signal s₂ = .developer := by
    simp [RouterName.signal, reviewRouter, hreview, World.demanding]
  have hstep₂ := Graph.superstep_eq (g := Preset.fullReact.compiled [] false) (b := {})
    (w := .demanding) (c := { values := e₁.after, next := some .reviewer }) rfl rfl rfl rfl rfl rfl
    (Graph.route_of_router .developer rfl hsignal rfl)
  obtain ⟨e₃, hnode₃, hstep₃, call₂, hcalls₂, -, -⟩ := demanding_turn s₂
  have hrun : Run (ServiceStep (Preset.fullReact.compiled [] false) {})
      { values := s₀, next := some .developer }
      ([] ++ .superstep e₁ :: ([.superstep _] ++ .superstep e₃ :: [])) _ :=
    ((Run.single (.superstep hstep₁)).snoc (.superstep hstep₂)).snoc (.superstep hstep₃)
  have hmem₁ : call₁ ∈ e₁.run.calls := hcalls₁ ▸ List.mem_singleton_self call₁
  have hmem₂ : call₂ ∈ e₃.run.calls := hcalls₂ ▸ List.mem_singleton_self call₂
  have himpl : ∀ e : StepLog, e.node = .developer →
      (Preset.fullReact.compiled [] false).impl e.node
        = some (.developerReact developerSystemWithTools [] [] 8) := by
    intro e he
    rw [he]
    rfl
  obtain ⟨reply, hreply, hcontinued⟩ := transcript_continued hrun (himpl e₁ hnode₁)
    (himpl e₃ hnode₃) hmem₁ hmem₂ htools
  exact ⟨e₁, _, e₃, _, call₁, call₂, reply, hrun, hmem₁, hmem₂, hreply, hcontinued⟩

end AgentRoom
