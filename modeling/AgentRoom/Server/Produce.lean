import AgentRoom.Server.StreamEvents
import AgentRoom.Service

set_option autoImplicit false

/-! # What `POST /tasks/stream` produces

`produce` streams a whole run: a first frame with the task id, one frame for every event of the
graph that is formatted, and the snapshot of the task as its last frame. A superstep contributes
the start of its node, whatever its calls stream (`Frame.isAside`), and the end of the node with
the update it returned. The scrubbing of the tokens is not modelled: any frames may stand for
those of the calls.
-/

namespace AgentRoom

/-! ## The name of a node, and results as JSON -/

def NodeName.text : NodeName → String
  | planner => "planner"
  | developer => "developer"
  | verify => "verify"
  | supervisor => "supervisor"
  | reviewer => "reviewer"
  | delivery => "delivery"
  | tools node => node.text ++ "_tools"

def TaskStatus.text : TaskStatus → String
  | completed => "completed"
  | failed => "failed"
  | awaitingUser => "awaiting_user"
  | running => "running"

def ArtifactKind.text : ArtifactKind → String
  | plan => "plan"
  | code => "code"
  | review => "review"
  | delivery => "delivery"

def Artifact.modelDump (a : Artifact) : List (String × Value) :=
  [("kind", .str a.kind.text), ("role", .str a.role.text), ("content", .str a.content),
    ("round", .int a.round), ("extra", .dict a.extra)]

def Event.modelDump (e : Event) : List (String × Value) :=
  [("type", .str e.type), ("role", .ofText (e.role.map Role.text)),
    ("round", .ofInt (e.round.map Int.ofNat)), ("payload", .dict e.payload)]

/-- The payload of the interrupt that asks about a tool call. -/
def ToolCall.interruptPayload (call : ToolCall) : List (String × Value) :=
  [("action", .str "approve_tool_call"), ("name", .str call.name), ("args", .dict call.args),
    ("id", .str call.id)]

/-- The dump of a model that may be absent. -/
def Value.ofDump {α : Type*} (dump : α → List (String × Value)) : Option α → Value
  | some a => .dict (dump a)
  | Option.none => .none

/-- `TaskResult.model_dump(mode="json")`. -/
def TaskResult.modelDump (r : TaskResult) : List (String × Value) :=
  [("task_id", .str r.taskId), ("status", .str r.status.text), ("plan", .ofText r.plan),
    ("code", .ofText r.code), ("review", .ofDump ReviewerDecision.modelDump r.review),
    ("delivery", .ofText r.delivery), ("rounds", .int r.rounds),
    ("verification", .ofDump VerificationResult.modelDump r.verification),
    ("stuck_decision", .ofDump StuckDecision.modelDump r.stuckDecision),
    ("artifacts", .list (r.artifacts.map fun a => .dict a.modelDump)),
    ("events", .list (r.events.map fun e => .dict e.modelDump)),
    ("pending_tool_calls", .list (r.pendingToolCalls.map fun call => .dict call.interruptPayload))]

/-! ## The frames of a run -/

/-- The frame of an event, where it is formatted. -/
def eventFrames (e : StreamEvent) : List Frame :=
  match formatStreamEvent e with
  | .ok (some d) => [formattedFrame d]
  | _ => []

/-- A frame of a node's calls. -/
def Frame.isAside (frame : Frame) : Bool :=
  frame.event ∈ ["token", "tool_call", "tool_result", "usage"]

/-- The frames of a superstep, with those of the node's calls between its start and its end. An
interrupted node does not end. -/
def nodeFrames (taskId : String) (dumped : Bool) (calls : List Frame) (e : StepLog) :
    List Frame :=
  eventFrames { data := .chainStart, name := e.node.text, taskId := some taskId } ++ calls ++
    if e.run.interrupt.isSome then []
    else eventFrames
      { data := .chainEnd (some e.run.update) dumped, name := e.node.text, taskId := some taskId }

def startedFrame (taskId : String) : Frame :=
  ⟨"task_started", .dict [("task_id", .str taskId)]⟩

/-- The last frame, with the snapshot of the task. -/
def finishedFrame (taskId : String) (c : Config) : Frame :=
  ⟨"task_finished", .dict (materializeResult taskId c).modelDump⟩

/-- A superstep of the graph, and the frames it adds to the stream. -/
inductive StreamStep (g : Graph) (b : Bindings) (taskId : String) :
    Config × List Frame → StepLog → Config × List Frame → Prop
  | mk {c c' : Config} {e : StepLog} {frames calls : List Frame} {dumped : Bool}
      (hstep : Superstep g b c e c') (hcalls : ∀ f ∈ calls, f.isAside = true) :
      StreamStep g b taskId (c, frames) e (c', frames ++ nodeFrames taskId dumped calls e)

/-- A stream that finishes: the supersteps `l` lead to `c`, where nothing is scheduled or a tool
call waits for a decision. `flushed` are the tokens the scrubber still held. -/
inductive Produces (g : Graph) (b : Bindings) (taskId : String) (req : TaskRequest) :
    List StepLog → Config → List Frame → Prop
  | mk {l : List StepLog} {c : Config} {frames flushed : List Frame}
      (hrun : Transition.Run (StreamStep g b taskId)
        (g.start taskId req, [startedFrame taskId]) l (c, frames))
      (hstopped : c.atEnd = true ∨ c.interrupt.isSome = true)
      (hflushed : ∀ f ∈ flushed, f.isAside = true) :
      Produces g b taskId req l c (frames ++ flushed ++ [finishedFrame taskId c])

end AgentRoom
