import AgentRoom.Server.Api
import AgentRoom.Server.StreamEvents

set_option autoImplicit false

/-! # The GET stream of a task

`GET /tasks/{id}/stream` takes a snapshot, replays its events and sends a second snapshot as
the final frame. A client may attach at any time: the frames are sent one by one while the
task's own run goes on (`AttachedStep`).
-/

namespace AgentRoom

/-- A frame of the GET stream. -/
inductive GetFrame
  | taskStarted (taskId : String)
  | event (type : String) (data : List (String × Value))
  | taskFinished (result : TaskResult)

/-- `{"type": ev.type, **ev.payload}`. -/
def Event.spread (ev : Event) : List (String × Value) :=
  ("type", (ev.payload.lookup "type").getD (.str ev.type)) ::
    ev.payload.filter (fun entry => entry.1 ≠ "type")

/-- The frame one recorded event is replayed as. -/
def replayFrame (ev : Event) : GetFrame :=
  match formatStreamEvent { data := .other "on_custom_event", name := ev.type } with
  | .ok (some (entry :: entries)) => .event ev.type (entry :: entries)
  -- `format_stream_event` knows no custom events, so this is what is sent
  | _ => .event ev.type ev.spread

/-- Where the generator of `stream_task_get` stands. -/
inductive GetStream
  /-- Before its first frame, with the events of the first snapshot. -/
  | opened (events : List Event)
  | replaying (rest : List Event)
  | returned

/-- `stream_task_get` up to its response; `none` is the 404. -/
def streamTaskGet (snapshot : TaskResult) : Option GetStream :=
  if snapshot.events = [] ∧ snapshot.artifacts = [] then none
  else some (.opened snapshot.events)

/-- The next frame. The second snapshot is taken for the last one. -/
def GetStream.next (taskId : String) (task : Config) : GetStream → Option (GetFrame × GetStream)
  | .opened events => some (.taskStarted taskId, .replaying events)
  | .replaying (ev :: rest) => some (replayFrame ev, .replaying rest)
  | .replaying [] => some (.taskFinished (materializeResult taskId task), .returned)
  | .returned => none

/-! ## A client and the task it is attached to -/

structure Attached where
  task : TaskRun
  stream : GetStream

/-- A step of the task, or a frame that is sent. -/
inductive AttachedLabel
  | task (a : HttpAction)
  | sent (frame : GetFrame)

inductive AttachedStep (srv : Server) (b : Bindings) (taskId : String) :
    Attached → AttachedLabel → Attached → Prop
  | task {s : Attached} {a : HttpAction} {r : TaskRun} :
      HttpStep srv b s.task a r → AttachedStep srv b taskId s (.task a) { s with task := r }
  | send {s : Attached} {frame : GetFrame} {stream : GetStream} :
      s.stream.next taskId s.task.config = some (frame, stream) →
      AttachedStep srv b taskId s (.sent frame) { s with stream := stream }

/-- The frames a client is sent. -/
def framesSent (l : List AttachedLabel) : List GetFrame :=
  l.filterMap (fun label => match label with
    | .task _ => none
    | .sent frame => some frame)

/-- What the task did meanwhile. -/
def taskActions (l : List AttachedLabel) : List HttpAction :=
  l.filterMap (fun label => match label with
    | .task a => some a
    | .sent _ => none)

@[simp] theorem framesSent_append (l l' : List AttachedLabel) :
    framesSent (l ++ l') = framesSent l ++ framesSent l' := List.filterMap_append

@[simp] theorem taskActions_append (l l' : List AttachedLabel) :
    taskActions (l ++ l') = taskActions l ++ taskActions l' := List.filterMap_append

@[simp] theorem framesSent_task (a : HttpAction) : framesSent [.task a] = [] := rfl
@[simp] theorem framesSent_sent (frame : GetFrame) : framesSent [.sent frame] = [frame] := rfl
@[simp] theorem taskActions_task (a : HttpAction) : taskActions [.task a] = [a] := rfl
@[simp] theorem taskActions_sent (frame : GetFrame) : taskActions [.sent frame] = [] := rfl

/-! ## What a task records -/

/-- The events a step of the task records. -/
def HttpAction.recorded : HttpAction → List Event
  -- the writes of an interrupted node are discarded
  | .executed _ log => if log.run.interrupt.isSome then [] else log.run.update.events
  | .resumed decision => [userDecisionApplied decision .reviewer]

/-- The events a history records. -/
def recordedOver (h : List HttpAction) : List Event := h.flatMap HttpAction.recorded

@[simp] theorem recordedOver_append (h h' : List HttpAction) :
    recordedOver (h ++ h') = recordedOver h ++ recordedOver h' := List.flatMap_append

@[simp] theorem recordedOver_singleton (a : HttpAction) : recordedOver [a] = a.recorded := by
  simp [recordedOver]

end AgentRoom
