import AgentRoom.Server.Produce
import AgentRoom.Server.UiStream
import AgentRoom.Web.AgentEvent

set_option autoImplicit false

/-! # The task page of the thin UI

`static/app.js` shows a task in the pages of the server itself. The page listens to the GET
stream, which the browser opens again when it breaks, and answers a waiting task with a form
(`Visit`). What stands beside the name of an event in the log is left out, and the data of a frame
is taken as it was sent.
-/

namespace AgentRoom

open Web (Record asString asRecord truthy)

/-- What the page shows and remembers. An event is its type and its payload. -/
structure TaskPage where
  label : String := "…"
  log : List String := []
  lastEvent : Option (String × Record) := none
  lastReview : Option Record := none
  resumeHidden : Bool := true
  resumeFeedback : Option Value := some (.str "")
  delivery : Option Value := none
  closed : Bool := false

namespace TaskPage

/-- The types of events the page listens to. -/
def listened : List String :=
  ["task_started", "task_finished", "task_error", "node_start", "node_end", "token", "review",
    "tool_call", "tool_result"]

/-- `deriveStatus`. -/
def deriveStatus (server : String) (ev : Option (String × Record)) (review : Option Record) :
    String :=
  let decision := review.bind fun r => asString (r.get "decision")
  let type := (ev.map Prod.fst).getD ""
  let payload := (ev.map Prod.snd).getD []
  let node := asString (if truthy (payload.get "role") then payload.get "role"
    else payload.get "node")
  if server = "completed" then "completed"
  else if server = "failed" then "failed"
  else if server = "awaiting_user" then "need_user_decision"
  else if decision = some "approved" then "review_passed"
  else if decision = some "revision_required" then "revision_required"
  else if type = "node_start" ∧ node = some "reviewer" then "submitted_for_review"
  else if type = "node_start" ∧ node = some "delivery" then "delivering"
  else if type = "node_start" ∧ node = some "developer" then "in_progress"
  else if type = "node_start" ∧ node = some "planner" then "planned"
  else if type = "task_started" then "assigned"
  else "running"

/-- `pickLastReview`. -/
def pickLastReview (events : List Value) : Option Record :=
  (events.reverse.map fun ev => asRecord (some ev)).findSome? fun ev =>
    let payload := asRecord (ev.get "payload")
    if asString (ev.get "type") = some "review" ∧ truthy (payload.get "decision") then
      some payload
    else none

variable (p : TaskPage)

def setStatus (server : String) (ev : Option (String × Record)) (review : Option Record) :
    TaskPage :=
  { p with label := deriveStatus server ev review }

def appendEvent (name : String) (data : Record) : TaskPage :=
  { p with log := p.log ++ [name], lastEvent := some (name, data) }

/-- `onFinished`. -/
def onFinished (snap : Record) : TaskPage :=
  let events := match snap.get "events" with
    | some (.list events) => events
    | _ => []
  let review := pickLastReview events
  let status := (asString (snap.get "status")).getD ""
  { p.setStatus status p.lastEvent review with
    lastReview := review
    delivery := if truthy (snap.get "delivery") then snap.get "delivery" else p.delivery
    resumeHidden := if status = "awaiting_user" then false else p.resumeHidden
    resumeFeedback :=
      if status = "awaiting_user" then
        match review with
        | some review => review.get "feedback"
        | none => some (.str "")
      else p.resumeFeedback }

/-- `handle`, which is called for the types that are listened to. -/
def handle (name : String) (data : Record) : TaskPage :=
  if name ∉ listened then p
  else if name = "task_finished" then { p with closed := true }.onFinished data
  else if name = "task_error" then
    ({ p with closed := true }.appendEvent name data).setStatus "failed" none none
  else
    let p := p.appendEvent name data
    let p := p.setStatus "running" p.lastEvent p.lastReview
    if truthy (data.get "decision") then { p with lastReview := some data } else p

/-- The form, when the reply has come. -/
def resumed (decision : String) (snap : Record) : TaskPage :=
  ({ p with resumeHidden := true }.appendEvent "resumed" [("decision", .str decision)]).onFinished
    snap

/-- The form, when the request has failed. -/
def resumeFailed (message : String) : TaskPage :=
  p.appendEvent "resume_error" [("error", .str message)]

end TaskPage

/-- The name of a frame. -/
def GetFrame.name : GetFrame → String
  | .taskStarted _ => "task_started"
  | .event type _ => type
  | .taskFinished _ => "task_finished"

/-- The data of a frame. -/
def GetFrame.data : GetFrame → Record
  | .taskStarted taskId => [("task_id", .str taskId)]
  | .event _ data => data
  | .taskFinished result => result.modelDump

/-! ## A page and the task it shows -/

/-- A task, the page that shows it, and its connection. -/
structure Visit where
  task : TaskRun
  page : TaskPage := {}
  stream : Option GetStream := none

inductive VisitLabel
  | task (a : HttpAction)
  | connected
  | sent (frame : GetFrame)
  | answered (decision : String) (result : TaskResult)
  | refused (message : String)

/-- The task goes on, the browser connects or connects again, a frame arrives, or the form hears
of its answer. -/
inductive VisitStep (srv : Server) (b : Bindings) (taskId : String) :
    Visit → VisitLabel → Visit → Prop
  | task {v : Visit} {a : HttpAction} {r : TaskRun} : HttpStep srv b v.task a r →
      VisitStep srv b taskId v (.task a) { v with task := r }
  | connected {v : Visit} : v.page.closed = false →
      VisitStep srv b taskId v .connected
        { v with stream := streamTaskGet (materializeResult taskId v.task.config) }
  | sent {v : Visit} {stream stream' : GetStream} {frame : GetFrame} : v.page.closed = false →
      v.stream = some stream → stream.next taskId v.task.config = some (frame, stream') →
      VisitStep srv b taskId v (.sent frame)
        { v with stream := some stream', page := v.page.handle frame.name frame.data }
  | answered {v : Visit} {decision : String} : v.page.resumeHidden = false →
      VisitStep srv b taskId v (.answered decision (materializeResult taskId v.task.config))
        { v with
          page := v.page.resumed decision (materializeResult taskId v.task.config).modelDump }
  | refused {v : Visit} {message : String} : v.page.resumeHidden = false →
      VisitStep srv b taskId v (.refused message)
        { v with page := v.page.resumeFailed message }

end AgentRoom
