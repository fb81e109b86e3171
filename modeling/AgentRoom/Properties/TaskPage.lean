import AgentRoom.Properties.GetStream
import AgentRoom.Server.TaskPage

set_option autoImplicit false

/-! # What the thin UI can show

The page of a task has labels for the steps of a run, and a place for what a reviewer asks. It
listens to events under the names that a streamed run has, but the GET stream replays events under
the names they are recorded with. No name is on both lists. So whatever a task does, the page
shows none of its events, and asks for a decision without saying what about (`task_page_blind`).
-/

namespace AgentRoom

open Transition (Run)
open Web (Record asString asRecord truthy)

/-! ## What is recorded -/

/-- The types of the events that nodes and resumes record. -/
def recordedTypes : List String :=
  ["planner_completed", "planner_gate_escalated", "developer_completed", "guardrail_triggered",
    "reviewer_completed", "reviewer_focus_check_escalated", "verification_completed",
    "supervisor_decided", "delivery_completed", "user_decision_applied"]

theorem not_listened_of_mem_recordedTypes {type : String} (h : type ∈ recordedTypes) :
    type ∉ TaskPage.listened := by
  revert type
  decide

theorem type_of_mem_scanToolMessages {g : Guardrail} {roundNo : Nat} {ts : List ToolMessage}
    {events : List Event} (h : scanToolMessages g roundNo ts = .ok events) :
    ∀ ev ∈ events, ev.type ∈ recordedTypes := by
  induction ts generalizing events with
  | nil =>
      cases h
      exact fun ev hev => absurd hev List.not_mem_nil
  | cons t rest ih =>
      rw [scanToolMessages] at h
      cases hcheck : g.check t.content.extractText .toolResponse with
      | error finding =>
          rw [hcheck] at h
          cases h
      | ok finding? =>
          rw [hcheck] at h
          cases finding? with
          | none => exact ih h
          | some finding =>
              obtain ⟨later, hlater, h⟩ := Fallible.bind_eq_ok h
              cases h
              intro ev hev
              rcases List.mem_cons.mp hev with rfl | hev
              · show "guardrail_triggered" ∈ recordedTypes
                decide
              · exact ih hlater ev hev

/-- **Every node** records events of these types only. -/
theorem NodeImpl.type_of_mem_events {impl : NodeImpl} {b : Bindings} {w : World} {s : TaskState}
    {resumes : List Decision} {run : NodeRun} (h : impl.run b w s resumes = .ok run) :
    ∀ ev ∈ run.update.events, ev.type ∈ recordedTypes := by
  cases impl with
  | planner sys keys =>
      cases h
      by_cases hd : s.devMessages = [] <;> simp [AgentRoom.planner, hd, recordedTypes]
  | plannerGate sys keys =>
      cases h
      by_cases hq : w.gate.openQuestions = [] <;>
        simp [AgentRoom.plannerGate, hq, recordedTypes]
  | developerReact sys keys tools maxDevRounds =>
      obtain ⟨events, hevents, h⟩ := Fallible.bind_eq_ok h
      obtain ⟨llmInput, -, h⟩ := Fallible.bind_eq_ok h
      cases h
      have hscanned := type_of_mem_scanToolMessages hevents
      by_cases hfinal : w.message.toolCalls = []
      · -- the scan of the tool results comes before the code
        intro ev hev
        simp only [developerReactUpdate, if_pos hfinal] at hev
        rcases List.mem_append.mp hev with hev | hev
        · exact hscanned ev hev
        · rw [List.mem_singleton.mp hev]
          show "developer_completed" ∈ recordedTypes
          decide
      · simpa [developerReactUpdate, hfinal] using hscanned
  | reviewer sys keys =>
      cases h
      by_cases hd : w.review.decision = .revisionRequired ∧ s.devMessages ≠ [] <;>
        simp [AgentRoom.reviewer, hd, recordedTypes]
  | reviewerTwoCall sys keys =>
      cases h
      by_cases hf : focusEscalates w.focus s = true <;>
        simp [AgentRoom.reviewerTwoCall, hf, recordedTypes]
  | delivery sys keys =>
      obtain ⟨calls, findings, hfindings, rfl⟩ := delivery_ok h
      intro ev hev
      rcases List.mem_cons.mp hev with rfl | hev
      · show "delivery_completed" ∈ recordedTypes
        decide
      · rw [hfindings ev hev]
        decide
  | verifier =>
      cases h
      by_cases ho : Py.truthy s.verifyCommand = true
      · by_cases hd : s.devMessages = [] <;>
          cases hp : (runVerifyCommand w.oracle (s.verifyRound + 1)).passed <;>
          simp [AgentRoom.verifier, ho, hd, hp, recordedTypes]
      · simp [AgentRoom.verifier, ho]
  | approvalToolNode tools =>
      rcases approvalToolNode_ok h with ⟨call, -, rfl⟩ | ⟨answers, -, -, rfl⟩ <;> simp
  | developer | supervisor =>
      cases h
      simp [AgentRoom.developer, AgentRoom.supervisor, recordedTypes]
  | toolNode =>
      cases h
      simp [AgentRoom.toolNode]

/-- Every event has one of the types that are recorded. -/
def Recorded (events : List Event) : Prop := ∀ ev ∈ events, ev.type ∈ recordedTypes

theorem Recorded.apply {s : TaskState} {u : Update} (hs : Recorded s.events)
    (hu : Recorded u.events) : Recorded (s.apply u).events := by
  have happly : (s.apply u).events = Window.push eventsSoftCap s.events u.events :=
    cappedAppend_eq_push (by decide) _ _
  rw [happly, Window.push]
  intro ev hev
  exact (List.mem_append.mp (List.mem_of_mem_drop hev)).elim (hs ev) (hu ev)

/-- **A step of a task** records such events only. -/
theorem HttpStep.recorded {srv : Server} {b : Bindings} {r r' : TaskRun} {a : HttpAction}
    (h : HttpStep srv b r a r') (hr : Recorded r.config.values.events) :
    Recorded r'.config.values.events := by
  cases h with
  | superstep hs =>
      obtain ⟨n, impl, -, -, -, -, -, hrun, ⟨call, -, -, rfl⟩ | ⟨-, hafter, next, -, rfl⟩⟩ :=
        Graph.superstep_inv hs
      · exact hr
      · rw [hafter]
        exact hr.apply (NodeImpl.type_of_mem_events hrun)
  | resume hr' =>
      obtain ⟨-, hb⟩ := Server.resumeTask_ok hr'
      obtain ⟨hvalues, -⟩ := Graph.updateState_inv hb
      rw [hvalues]
      refine hr.apply fun ev hev => ?_
      rw [List.mem_singleton.mp hev]
      show "user_decision_applied" ∈ recordedTypes
      decide

/-! ## What the page hears -/

/-- What the label may be when the page has heard a status. -/
def TaskStatus.pageLabels : TaskStatus → List String
  | completed => ["completed"]
  | failed => ["failed"]
  | awaitingUser => ["need_user_decision"]
  | running => ["assigned", "running"]

namespace TaskPage

/-- What the page logs on its own account. -/
def ownNames : List String := ["task_started", "resumed", "resume_error"]

/-- What the page shows as long as it has not heard of any step of a run. -/
structure Blind (p : TaskPage) : Prop where
  log : ∀ name ∈ p.log, name ∈ ownNames
  label : p.label ∈ ["…", "assigned", "running", "completed", "failed", "need_user_decision"]
  lastEvent : ∀ ev, p.lastEvent = some ev → ev.1 ∈ ownNames
  lastReview : p.lastReview = none
  resumeFeedback : p.resumeFeedback = some (.str "")

theorem Blind.new : Blind {} := by
  constructor <;> simp

/-- No review is found among recorded events. -/
theorem pickLastReview_eq_none {events : List Event} (h : Recorded events) :
    pickLastReview (events.map fun ev => .dict ev.modelDump) = none := by
  rw [pickLastReview, List.findSome?_eq_none_iff]
  intro record hrecord
  obtain ⟨v, hv, rfl⟩ := List.mem_map.mp hrecord
  obtain ⟨ev, hev, rfl⟩ := List.mem_map.mp (List.mem_reverse.mp hv)
  have htype : ev.type ≠ "review" := by
    have hmem := h ev hev
    rintro heq
    rw [heq] at hmem
    exact absurd hmem (by decide)
  refine if_neg fun hreview => htype ?_
  have hget : (asRecord (some (.dict ev.modelDump))).get "type" = some (.str ev.type) := rfl
  rw [hget] at hreview
  exact Option.some.inj hreview.1

/-- Without a review and a start of a node the label follows the status. -/
theorem deriveStatus_mem {status : TaskStatus} {ev : Option (String × Record)}
    (hev : ∀ e, ev = some e → e.1 ∈ ownNames) :
    deriveStatus status.text ev none ∈ status.pageLabels := by
  have hstart : (ev.map Prod.fst).getD "" ≠ "node_start" := by
    cases ev with
    | none => decide
    | some e =>
        intro heq
        have hmem := hev e rfl
        rw [Option.map_some, Option.getD_some] at heq
        rw [heq] at hmem
        exact absurd hmem (by decide)
  cases status with
  | completed | failed | awaitingUser =>
      simp [deriveStatus, TaskStatus.text, TaskStatus.pageLabels]
  | running =>
      simp only [deriveStatus, TaskStatus.text, hstart, false_and, if_false, Option.bind_none]
      by_cases htype : (ev.map Prod.fst).getD "" = "task_started" <;>
        simp [htype, TaskStatus.pageLabels]

theorem mem_of_mem_pageLabels {status : TaskStatus} {label : String}
    (h : label ∈ status.pageLabels) :
    label ∈ ["…", "assigned", "running", "completed", "failed", "need_user_decision"] := by
  revert label
  cases status <;> decide

/-- What the page makes of a snapshot. -/
theorem onFinished_blind {p : TaskPage} (h : p.Blind) (taskId : String) {c : Config}
    (hc : Recorded c.values.events) :
    let heard := p.onFinished (materializeResult taskId c).modelDump
    heard.Blind ∧ heard.label ∈ c.status.pageLabels ∧
      (c.status = .awaitingUser → heard.resumeHidden = false) := by
  have hevents : Record.get (materializeResult taskId c).modelDump "events" =
      some (.list (c.values.events.map fun ev => .dict ev.modelDump)) := rfl
  have hstatus : Record.get (materializeResult taskId c).modelDump "status" =
      some (.str c.status.text) := rfl
  have hlabel : deriveStatus c.status.text p.lastEvent none ∈ c.status.pageLabels :=
    deriveStatus_mem h.lastEvent
  have hreview := pickLastReview_eq_none hc
  generalize (materializeResult taskId c).modelDump = snap at hevents hstatus ⊢
  have hawaiting : c.status.text = "awaiting_user" ↔ c.status = .awaitingUser := by
    cases c.status <;> decide
  simp only [onFinished, hevents, hstatus, hreview, asString, Option.getD_some, setStatus, hawaiting]
  refine ⟨⟨h.log, mem_of_mem_pageLabels hlabel, h.lastEvent, rfl, ?_⟩, hlabel, fun hwaits => ?_⟩
  · rw [h.resumeFeedback, ite_self]
  · rw [if_pos hwaits]

theorem appendEvent_blind {p : TaskPage} (h : p.Blind) {name : String} (hname : name ∈ ownNames)
    (data : Record) : (p.appendEvent name data).Blind where
  log entry hentry := by
    rcases List.mem_append.mp hentry with hold | hnew
    · exact h.log entry hold
    · rwa [List.mem_singleton.mp hnew]
  label := h.label
  lastEvent ev hev := by
    cases hev
    exact hname
  lastReview := h.lastReview
  resumeFeedback := h.resumeFeedback

/-- A recorded event is not listened to. -/
theorem handle_of_recorded (p : TaskPage) {name : String} (h : name ∈ recordedTypes)
    (data : Record) : p.handle name data = p :=
  if_pos (not_listened_of_mem_recordedTypes h)

theorem handle_taskStarted_blind {p : TaskPage} (h : p.Blind) (taskId : String) :
    (p.handle "task_started" [("task_id", .str taskId)]).Blind := by
  have happended := appendEvent_blind h (show "task_started" ∈ ownNames by decide)
    [("task_id", .str taskId)]
  have hhandle : p.handle "task_started" [("task_id", .str taskId)] =
      (p.appendEvent "task_started" [("task_id", .str taskId)]).setStatus "running"
        (p.appendEvent "task_started" [("task_id", .str taskId)]).lastEvent p.lastReview := rfl
  have hlabel : deriveStatus "running" (some ("task_started", [("task_id", .str taskId)])) none =
      "assigned" := rfl
  rw [hhandle]
  refine { happended with label := ?_ }
  show deriveStatus "running" (some ("task_started", [("task_id", .str taskId)])) p.lastReview ∈ _
  rw [h.lastReview, hlabel]
  decide

end TaskPage

/-! ## A page over the life of a task -/

/-- What the frames still to come replay. -/
def GetStream.Replays : GetStream → Prop
  | .opened events | .replaying events => Recorded events
  | .returned => True

/-- The task and what is left of the stream have recorded events, and the page knows of none. -/
structure Visit.Blind (v : Visit) : Prop where
  task : Recorded v.task.config.values.events
  stream : ∀ stream, v.stream = some stream → stream.Replays
  page : v.page.Blind

/-- The snapshot the page hears of. -/
def VisitLabel.snapshot? : VisitLabel → Option TaskResult
  | .sent (.taskFinished result) | .answered _ result => some result
  | _ => none

theorem Visit.Blind.step {srv : Server} {b : Bindings} {taskId : String} {v v' : Visit}
    {label : VisitLabel} (h : v.Blind) (hstep : VisitStep srv b taskId v label v') :
    v'.Blind ∧ ∀ result, label.snapshot? = some result →
      v'.page.label ∈ result.status.pageLabels ∧
        (result.status = .awaitingUser → v'.page.resumeHidden = false) := by
  cases hstep with
  | task ha => exact ⟨⟨ha.recorded h.task, h.stream, h.page⟩, fun _ hnone => by cases hnone⟩
  | connected =>
      refine ⟨⟨h.task, fun stream hstream => ?_, h.page⟩, fun _ hnone => by cases hnone⟩
      obtain ⟨-, hopened⟩ := Option.ite_none_left_eq_some.mp hstream
      cases hopened
      exact h.task
  | @sent stream stream' frame _ hstream hnext =>
      have hreplays := h.stream stream hstream
      cases stream with
      | opened events =>
          cases hnext
          refine ⟨⟨h.task, fun _ heq => by cases heq; exact hreplays, ?_⟩,
            fun _ hnone => by cases hnone⟩
          exact TaskPage.handle_taskStarted_blind h.page taskId
      | replaying events =>
          cases events with
          | nil =>
              cases hnext
              obtain ⟨hpage, hlabel, hform⟩ := TaskPage.onFinished_blind
                (p := { v.page with closed := true }) { h.page with } taskId h.task
              -- the last frame is made of the task as it is now, not as it was opened
              refine ⟨⟨h.task, fun _ heq => by cases heq; trivial, hpage⟩, fun result hresult => ?_⟩
              cases hresult
              exact ⟨hlabel, hform⟩
          | cons ev rest =>
              cases hnext
              refine ⟨⟨h.task, fun _ heq => ?_, ?_⟩, fun _ hnone => by cases hnone⟩
              · cases heq
                exact fun other hother => hreplays other (List.mem_cons_of_mem _ hother)
              · -- the frame is named after a recorded event, so no handler is called
                show (v.page.handle ev.type ev.spread).Blind
                rw [TaskPage.handle_of_recorded _ (hreplays ev List.mem_cons_self)]
                exact h.page
      | returned => cases hnext
  | @answered decision =>
      have hresumed := TaskPage.appendEvent_blind
        (p := { v.page with resumeHidden := true }) { h.page with }
        (show "resumed" ∈ TaskPage.ownNames by decide) [("decision", .str decision)]
      obtain ⟨hpage, hlabel, hform⟩ := TaskPage.onFinished_blind hresumed taskId h.task
      refine ⟨⟨h.task, h.stream, hpage⟩, fun result hresult => ?_⟩
      cases hresult
      exact ⟨hlabel, hform⟩
  | refused =>
      refine ⟨⟨h.task, h.stream, ?_⟩, fun _ hnone => by cases hnone⟩
      exact TaskPage.appendEvent_blind h.page (by decide) _

/-- **The page of the thin UI sees no step of a run.** Whatever a task records and however often
the page connects and answers: its log has nothing but its own entries, its label is one for the
status of a snapshot, and where the task waits for a decision the form is shown with no word of
what is asked. -/
theorem task_page_blind {srv : Server} {b : Bindings} {taskId : String} {req : TaskRequest}
    {r : TaskRun} {l : List VisitLabel} {v : Visit} (hcreate : srv.createTask b taskId req = .ok r)
    (hrun : Run (VisitStep srv b taskId) { task := r } l v) :
    (∀ name ∈ v.page.log, name ∈ TaskPage.ownNames) ∧
      v.page.label ∈ ["…", "assigned", "running", "completed", "failed", "need_user_decision"] ∧
      v.page.resumeFeedback = some (.str "") ∧
      ∀ label result, l.getLast? = some label → label.snapshot? = some result →
        v.page.label ∈ result.status.pageLabels ∧
          (result.status = .awaitingUser → v.page.resumeHidden = false) := by
  -- A fresh task has no events, and the page has heard nothing.
  have hstart : Visit.Blind { task := r } :=
    { task := by
        rw [(Server.createTask_ok hcreate).2.2]
        exact fun ev hev => absurd hev List.not_mem_nil
      stream := fun _ hnone => by cases hnone
      page := .new }
  -- What the last snapshot showed is said along the log, the rest of the state.
  obtain ⟨hblind, hheard⟩ := hrun.log_invariant
    (P := fun l v => v.Blind ∧ ∀ label result, l.getLast? = some label →
      label.snapshot? = some result → v.page.label ∈ result.status.pageLabels ∧
        (result.status = .awaitingUser → v.page.resumeHidden = false))
    (fun l v label v' h hstep => by
      obtain ⟨hv', hsnapshot⟩ := h.1.step hstep
      refine ⟨hv', fun last result hlast hresult => ?_⟩
      rw [List.getLast?_concat, Option.some.injEq] at hlast
      rw [← hlast] at hresult
      exact hsnapshot result hresult)
    ⟨hstart, fun _ _ hlast => by cases hlast⟩
  exact ⟨hblind.page.log, hblind.page.label, hblind.page.resumeFeedback, hheard⟩

/-- A world in which the planner's gate has a question. -/
def World.questioning : World :=
  { World.agreeable with gate := { plan := "draft", openQuestions := ["which one?"] } }

/-- A server whose planner is a gate. -/
def gateServer : Server := { settings := { graphPreset := "planner_gate" } }

/-- The planner's gate has a question. The page shows the form without it. -/
theorem task_page_blind_questioned :
    ∃ l v, Run (VisitStep gateServer {} "task")
        { task := ⟨Preset.plannerGate.compiled gateServer.devTools false,
          (Preset.plannerGate.compiled gateServer.devTools false).start "task" smallRequest⟩ } l v ∧
      v.page.label = "need_user_decision" ∧ v.page.resumeHidden = false ∧
      v.page.resumeFeedback = some (.str "") ∧
      v.task.config.values.openQuestions = ["which one?"] := by
  let g := Preset.plannerGate.compiled gateServer.devTools false
  have hcreate : gateServer.createTask {} "task" smallRequest
      = .ok ⟨g, g.start "task" smallRequest⟩ := rfl
  have hstep := Graph.superstep_eq (g := g) (b := {}) (w := World.questioning)
    (c := g.start "task" smallRequest) (n := .planner) rfl rfl rfl rfl rfl rfl
    (Preset.route_planner (p := .plannerGate) _ _ _ rfl)
  have hstarted : Run (VisitStep gateServer {} "task") { task := ⟨g, g.start "task" smallRequest⟩ }
      _ _ := .single (.task (.superstep hstep))
  have hfinished := ((((hstarted.snoc (.connected rfl)).snoc (.sent rfl rfl rfl)).snoc
    (.sent rfl rfl rfl)).snoc (.sent rfl rfl rfl)).snoc (.sent rfl rfl rfl)
  obtain ⟨-, -, hfeedback, hheard⟩ := task_page_blind hcreate hfinished
  obtain ⟨hlabel, hform⟩ := hheard _ _ List.getLast?_concat rfl
  exact ⟨_, _, hfinished, List.mem_singleton.mp hlabel, hform rfl, hfeedback, rfl⟩

end AgentRoom
