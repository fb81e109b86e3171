import AgentRoom.Server.UiStream
import AgentRoom.Properties.ToolDecisions
import AgentRoom.Properties.SlidingWindow

set_option autoImplicit false

/-! # What a client of the GET stream sees

The replayed events come from one snapshot and the final frame from a later one; nothing
waits in between. The two agree when the task records nothing meanwhile, and the final frame
is a final one when the task has come to rest by then.
-/

namespace AgentRoom

open Transition

/-! ## The events of a task -/

/-- A step appends what it records and keeps the newest events. -/
theorem HttpStep.events {srv : Server} {b : Bindings} {r r' : TaskRun} {a : HttpAction}
    (h : HttpStep srv b r a r') (hwindow : r.config.values.events.length ≤ eventsSoftCap) :
    r'.config.values.events =
      Window.push eventsSoftCap r.config.values.events a.recorded := by
  have happly : ∀ u : Update, (r.config.values.apply u).events =
      Window.push eventsSoftCap r.config.values.events u.events :=
    fun u => cappedAppend_eq_push (by decide) _ _
  cases h with
  | superstep hs =>
      obtain ⟨n, impl, -, -, -, -, -, -, ⟨call, hi, -, rfl⟩ | ⟨hi, hafter, next, -, rfl⟩⟩ :=
        Graph.superstep_inv hs
      · have hnone : (HttpAction.executed r.graph _).recorded = [] :=
          if_pos (by rw [hi]; rfl)
        rw [hnone, Window.push, List.append_nil, Window.rtake_of_length_le hwindow]
      · have hall : (HttpAction.executed r.graph _).recorded = _ :=
          if_neg (by rw [hi]; exact Bool.false_ne_true)
        rw [hall, ← happly, hafter]
  | resume hr =>
      obtain ⟨-, hb⟩ := Server.resumeTask_ok hr
      obtain ⟨hvalues, -⟩ := Graph.updateState_inv hb
      rw [hvalues, happly]
      rfl

/-- A task has the newest of the events it recorded. -/
theorem events_of_run {srv : Server} {b : Bindings} {r₀ r : TaskRun} {h : List HttpAction}
    (hrun : Run (HttpStep srv b) r₀ h r) (hfresh : r₀.config.values.events = []) :
    r.config.values.events = (recordedOver h).rtake eventsSoftCap := by
  refine hrun.log_invariant
    (P := fun h r => r.config.values.events = (recordedOver h).rtake eventsSoftCap) ?_ ?_
  · intro h r a r' hevents hstep
    have hwindow : r.config.values.events.length ≤ eventsSoftCap := by
      rw [hevents, List.rtake, List.length_drop]
      omega
    rw [hstep.events hwindow, hevents, Window.push_rtake, recordedOver_append,
      recordedOver_singleton]
  · rw [hfresh]
    rfl

/-! ## The frames of a client -/

/-- Where a stream over some events stands after it has sent some frames. -/
def Replayed (taskId : String) (events : List Event) (frames : List GetFrame) :
    GetStream → Prop
  | .opened rest => rest = events ∧ frames = []
  | .replaying rest => ∃ before, events = before ++ rest ∧
      frames = .taskStarted taskId :: before.map replayFrame
  | .returned => True

theorem replayFrame_eq (ev : Event) : replayFrame ev = .event ev.type ev.spread := rfl

theorem replayed_next {taskId : String} {events : List Event} {frames : List GetFrame}
    {task : Config} {stream stream' : GetStream} {frame : GetFrame}
    (h : Replayed taskId events frames stream)
    (hnext : stream.next taskId task = some (frame, stream')) :
    Replayed taskId events (frames ++ [frame]) stream' := by
  cases stream with
  | opened rest =>
      cases hnext
      obtain ⟨rfl, rfl⟩ := h
      exact ⟨[], rfl, rfl⟩
  | replaying rest =>
      cases rest with
      | nil =>
          cases hnext
          trivial
      | cons ev rest =>
          cases hnext
          obtain ⟨before, rfl, rfl⟩ := h
          exact ⟨before ++ [ev], by simp, by simp⟩
  | returned => cases hnext

/-- The final frame is the last one, and it shows the task as it is then. -/
theorem next_eq_taskFinished {taskId : String} {task : Config} {stream stream' : GetStream}
    {result : TaskResult} (h : stream.next taskId task = some (.taskFinished result, stream')) :
    stream = .replaying [] ∧ result = materializeResult taskId task := by
  cases stream with
  | opened rest => cases h
  | replaying rest =>
      cases rest with
      | nil =>
          cases h
          exact ⟨rfl, rfl⟩
      | cons ev rest =>
          simp only [GetStream.next, replayFrame_eq] at h
          cases h
  | returned => cases h

/-- A run of an attached client: the task runs as it would alone, and the frames replay the
first snapshot. -/
theorem attached_run {srv : Server} {b : Bindings} {taskId : String} {r : TaskRun}
    {events : List Event} {l : List AttachedLabel} {s : Attached}
    (hl : Run (AttachedStep srv b taskId) ⟨r, .opened events⟩ l s) :
    Run (HttpStep srv b) r (taskActions l) s.task ∧
      Replayed taskId events (framesSent l) s.stream := by
  refine hl.log_invariant (P := fun l s => Run (HttpStep srv b) r (taskActions l) s.task ∧
    Replayed taskId events (framesSent l) s.stream) ?_ ?_
  · rintro l s label s' ⟨hrun, hframes⟩ hstep
    cases hstep with
    | task ha =>
        rw [taskActions_append, framesSent_append, framesSent_task, List.append_nil]
        exact ⟨hrun.snoc ha, hframes⟩
    | send hnext =>
        rw [taskActions_append, framesSent_append, taskActions_sent, List.append_nil]
        exact ⟨hrun, replayed_next hframes hnext⟩
  · exact ⟨.refl r, rfl, rfl⟩

/-- What the stream promises of its final frame: the task is not running, and the frames
before are its events in order, each once. -/
def TailsToEnd (taskId : String) (frames : List GetFrame) (final : TaskResult) : Prop :=
  final.status ≠ .running ∧ frames = .taskStarted taskId :: final.events.map replayFrame

/-- **When the GET stream tails to the end.** For every task, every moment a client attaches
and every interleaving of its frames with the task's own steps, in a history of at most
`EVENTS_SOFT_CAP` events: the final frame keeps the promise if and only if the task is no longer
running when it is sent and has recorded nothing since the client attached. -/
theorem stream_task_get_tails_iff {srv : Server} {b : Bindings} {taskId : String}
    {req : TaskRequest} {r₀ r : TaskRun} {h : List HttpAction} {stream stream' : GetStream}
    {l : List AttachedLabel} {s : Attached} {result : TaskResult}
    (hcreate : srv.createTask b taskId req = .ok r₀) (hrun : Run (HttpStep srv b) r₀ h r)
    (hattach : streamTaskGet (materializeResult taskId r.config) = some stream)
    (hl : Run (AttachedStep srv b taskId) ⟨r, stream⟩ l s)
    (hfinal : AttachedStep srv b taskId s (.sent (.taskFinished result)) { s with stream := stream' })
    (hcap : (recordedOver (h ++ taskActions l)).length ≤ eventsSoftCap) :
    TailsToEnd taskId (framesSent l) result ↔
      s.task.config.status ≠ .running ∧ recordedOver (taskActions l) = [] := by
  have hopened : stream = .opened r.config.values.events := by
    unfold streamTaskGet at hattach
    split at hattach
    · cases hattach
    · exact (Option.some.inj hattach).symm
  subst hopened
  obtain ⟨hlater, hframes⟩ := attached_run hl
  have hfresh : r₀.config.values.events = [] := by
    rw [(Server.createTask_ok hcreate).2.2]
    rfl
  -- Below the cap an event window is the whole record.
  have hnow : r.config.values.events = recordedOver h := by
    rw [recordedOver_append, List.length_append] at hcap
    rw [events_of_run hrun hfresh, Window.rtake_of_length_le (by omega)]
  have hthen : s.task.config.values.events = r.config.values.events ++
      recordedOver (taskActions l) := by
    rw [events_of_run (hrun.trans hlater) hfresh, Window.rtake_of_length_le hcap,
      recordedOver_append, hnow]
  -- The final frame is sent when the replay is empty, with the snapshot of that moment.
  obtain ⟨hreplaying, hresult⟩ : s.stream = .replaying [] ∧
      result = materializeResult taskId s.task.config := by
    cases hfinal with
    | send hnext => exact next_eq_taskFinished hnext
  rw [hreplaying] at hframes
  obtain ⟨before, hbefore, hsent⟩ := hframes
  rw [List.append_nil] at hbefore
  have hstatus : result.status = s.task.config.status := by rw [hresult]; rfl
  have hevents : result.events = s.task.config.values.events := by rw [hresult]; rfl
  unfold TailsToEnd
  rw [hstatus, hevents, hthen, hsent, ← hbefore]
  refine and_congr_right fun _ => ?_
  rw [List.cons.injEq, List.map_append]
  -- What was sent is the record at the attach; the promise asks for the record at the end.
  constructor
  · rintro ⟨-, hsame⟩
    exact List.map_eq_nil_iff.mp (List.self_eq_append_right.mp hsame)
  · intro hnothing
    rw [hnothing]
    simp

/-! ## Two clients -/

/-- A generator that is asked for frame after frame reaches its final snapshot. -/
theorem exists_replay (srv : Server) (b : Bindings) (taskId : String) (r : TaskRun)
    (events : List Event) :
    ∃ l, Run (AttachedStep srv b taskId) ⟨r, .replaying events⟩ l ⟨r, .replaying []⟩ ∧
      taskActions l = [] := by
  induction events with
  | nil => exact ⟨[], .refl _, rfl⟩
  | cons ev rest ih =>
      obtain ⟨l, hl, hnone⟩ := ih
      exact ⟨.sent (replayFrame ev) :: l, hl.cons (.send rfl), hnone⟩

def smallRequest : TaskRequest := { title := "t", description := "d" }

/-- A step whose node records nothing. -/
theorem recorded_executed_eq_nil {g : Graph} {e : StepLog} (h : e.run.update.events = []) :
    HttpAction.recorded (.executed g e) = [] := by
  show (if _ then [] else e.run.update.events) = []
  rw [h, ite_self]

/-- In approval mode a client attaches after the planner. Before its events are sent the
developer asks for a tool, and after them the gate halts the task: the stream tails to the
end. -/
theorem stream_task_get_tails_parked :
    ∃ r e₁ l e₂ r' result, result = materializeResult "task" r'.config ∧
      Run (AttachedStep approvalServer {} "task") ⟨r, .opened r.config.values.events⟩
        ([.sent (.taskStarted "task"), .task e₁] ++ l ++ [.task e₂]) ⟨r', .replaying []⟩ ∧
      r.config.next = some .developer ∧ r'.config.interrupt = some globCall ∧
      TailsToEnd "task"
        (framesSent ([.sent (.taskStarted "task"), .task e₁] ++ l ++ [.task e₂])) result := by
  let tools := approvalServer.devTools
  let g := Preset.fullReact.compiled tools true
  let s₁ := (initialState "task" smallRequest).apply
    (planner plannerSystem [] World.agreeable (initialState "task" smallRequest)).update
  let r₁ : TaskRun := ⟨g, { values := s₁, next := some .developer }⟩
  have hcreate : approvalServer.createTask {} "task" smallRequest
      = .ok ⟨g, g.start "task" smallRequest⟩ := rfl
  have hplanned := Graph.superstep_eq (g := g) (b := {}) (w := World.agreeable)
    (c := g.start "task" smallRequest) (n := .planner) rfl rfl rfl rfl rfl rfl
    (Preset.route_planner (p := .fullReact) _ _ _ rfl)
  obtain ⟨e₁, s₂, hasked, hsilent, hcalls, -, -⟩ :=
    asked_step tools s₁ (show [globCall] ≠ [] by simp)
  let r₂ : TaskRun := ⟨g, { values := s₂, next := some (.tools .developer) }⟩
  let r₃ : TaskRun :=
    ⟨g, { values := s₂, next := some (.tools .developer), interrupt := some globCall }⟩
  have hcall : (pendingCalls s₂.devMessages)[([] : List Decision).length]? = some globCall := by
    rw [hcalls]
    rfl
  have hgate : (NodeImpl.approvalToolNode tools).run {} World.agreeable s₂ [] = _ :=
    approvalToolNode_interrupt hcall tools {} World.agreeable
  obtain ⟨e₂, hhalted, hnothing⟩ : ∃ e₂, g.superstep {} World.agreeable r₂.config
      = .ok (e₂, r₃.config) ∧ e₂.run.update.events = [] :=
    ⟨_, Graph.superstep_interrupted rfl rfl rfl rfl hgate rfl, rfl⟩
  obtain ⟨l, hl, hnone⟩ := exists_replay approvalServer {} "task" r₂ s₁.events
  -- the frames of the client, with the two steps of the task among them
  have hopened : AttachedStep approvalServer {} "task" ⟨r₁, .opened s₁.events⟩
      (.sent (.taskStarted "task")) ⟨r₁, .replaying s₁.events⟩ := .send rfl
  have hturn : AttachedStep approvalServer {} "task" ⟨r₁, .replaying s₁.events⟩
      (.task (.executed g e₁)) ⟨r₂, .replaying s₁.events⟩ := .task (.superstep hasked)
  have hhalt : AttachedStep approvalServer {} "task" ⟨r₂, .replaying []⟩
      (.task (.executed g e₂)) ⟨r₃, .replaying []⟩ := .task (.superstep hhalted)
  have hrun : Run (AttachedStep approvalServer {} "task") ⟨r₁, .opened s₁.events⟩
      ([.sent (.taskStarted "task"), .task (.executed g e₁)] ++ l ++ [.task (.executed g e₂)])
      ⟨r₃, .replaying []⟩ := (((Run.single hopened).snoc hturn).trans hl).snoc hhalt
  have hactions : recordedOver (taskActions ([.sent (.taskStarted "task"),
      .task (.executed g e₁)] ++ l ++ [.task (.executed g e₂)])) = [] := by
    rw [taskActions_append, taskActions_append, hnone, recordedOver_append, List.append_nil,
      taskActions_task, recordedOver_singleton, recorded_executed_eq_nil hnothing]
    exact congrArg (· ++ []) ((recordedOver_singleton _).trans (recorded_executed_eq_nil hsilent))
  have hiff := stream_task_get_tails_iff hcreate (Run.single (.superstep hplanned)) rfl hrun
    (.send rfl) (by rw [recordedOver_append, hactions]; decide)
  have hstatus : r₃.config.status ≠ .running := by simp [Config.status, materializeStatus, r₃]
  exact ⟨r₁, _, l, _, r₃, _, rfl, hrun, rfl, rfl, hiff.mpr ⟨hstatus, hactions⟩⟩

/-- On the default server a client attaches after the planner, and the developer's turn ends
before its events are sent. The stream ends then, with a final frame that shows the task running
and an event the client was not sent. -/
theorem stream_task_get_ends_running :
    ∃ r₀ h r stream stream' l s result,
      ({} : Server).createTask {} "task" smallRequest = .ok r₀ ∧ Run (HttpStep {} {}) r₀ h r ∧
      streamTaskGet (materializeResult "task" r.config) = some stream ∧
      Run (AttachedStep {} {} "task") ⟨r, stream⟩ l s ∧
      AttachedStep {} {} "task" s (.sent (.taskFinished result)) { s with stream := stream' } ∧
      (recordedOver (h ++ taskActions l)).length ≤ eventsSoftCap ∧
      recordedOver (taskActions l) ≠ [] ∧ result.status = .running ∧
      ¬ TailsToEnd "task" (framesSent l) result := by
  let tools := ({} : Server).devTools
  let g := Preset.fullReact.compiled tools false
  let s₁ := (initialState "task" smallRequest).apply
    (planner plannerSystem [] World.agreeable (initialState "task" smallRequest)).update
  let convo := assembledConvo developerSystemWithTools [] 8 World.agreeable s₁
  let s₂ := s₁.apply (developerReactUpdate s₁ convo [] World.agreeable.message)
  let r₁ : TaskRun := ⟨g, { values := s₁, next := some .developer }⟩
  let r₂ : TaskRun := ⟨g, { values := s₂, next := some .reviewer }⟩
  have hcreate : ({} : Server).createTask {} "task" smallRequest
      = .ok ⟨g, g.start "task" smallRequest⟩ := rfl
  have hplanned := Graph.superstep_eq (g := g) (b := {}) (w := World.agreeable)
    (c := g.start "task" smallRequest) (n := .planner) rfl rfl rfl rfl rfl rfl
    (Preset.route_planner (p := .fullReact) _ _ _ rfl)
  have hturn : (NodeImpl.developerReact developerSystemWithTools [] tools 8).run {}
      World.agreeable s₁ [] = _ := developerReact_default _ _ _ _ _
  have hroute : g.route .developer s₂ = .ok (some .reviewer) :=
    Preset.route_developed _ _ _ rfl _ _ _
  have hdeveloped := Graph.superstep_eq (c := r₁.config) rfl rfl rfl rfl hturn rfl hroute
  obtain ⟨l, hl, hnone⟩ := exists_replay {} {} "task" r₂ s₁.events
  have hopened : AttachedStep {} {} "task" ⟨r₁, .opened s₁.events⟩
      (.sent (.taskStarted "task")) ⟨r₁, .replaying s₁.events⟩ := .send rfl
  have hdevelops : AttachedStep {} {} "task" ⟨r₁, .replaying s₁.events⟩
      (.task (.executed g _)) ⟨r₂, .replaying s₁.events⟩ := .task (.superstep hdeveloped)
  have hrun := ((Run.single hopened).snoc hdevelops).trans hl
  refine ⟨_, _, r₁, _, _, _, ⟨r₂, .replaying []⟩, _, hcreate, Run.single (.superstep hplanned),
    rfl, hrun, .send rfl, ?_, ?_, ?_, ?_⟩
  · rw [taskActions_append, hnone, List.append_nil]
    decide
  · rw [taskActions_append, hnone, List.append_nil]
    exact List.cons_ne_nil _ _
  · rfl
  · rintro ⟨hstatus, -⟩
    exact hstatus rfl

end AgentRoom
