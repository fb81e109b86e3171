import AgentRoom.Server.Feed
import AgentRoom.Web.AgentEvent
import AgentRoom.Web.Api

set_option autoImplicit false

/-! # Streaming a task

`streamTask` reads the stream of a new task and, while no terminal event has come, asks for the
frames after the last one it has. The system below is this client, the buffer of the run it has
started, the generator behind its current connection and any other subscribers. A connection is
lost between two frames; what the generator has yielded and the client has not read is gone.
-/

namespace AgentRoom.Web

/-- `MAX_RECONNECTS`. -/
def maxReconnects : Nat := 6

inductive ClientError
  /-- Whatever ended the first connection. -/
  | connection
  | tooManyReconnects
  | notResumable
  deriving DecidableEq

/-- Where `streamTask` stands. -/
inductive ClientPhase
  /-- In `readSse`, with this many frames read from the given subscriber. -/
  | reading (first : Bool) (subscriber read : Nat)
  /-- At the condition of the loop. -/
  | looping
  /-- In the second `fetch`. -/
  | connecting
  | returned
  | threw (error : ClientError)
  deriving DecidableEq

/-- The variables of `streamTask`, and the calls of `onEvent` so far. -/
structure Client where
  lastId : Int := -1
  taskId : Option String := none
  terminal : Bool := false
  attempt : Nat := 0
  events : List AgentEvent := []
  phase : ClientPhase

namespace Client

def enter (c : Client) (phase : ClientPhase) : Client := { c with phase := phase }

/-- `handle`. -/
def handle (c : Client) (event : AgentEvent) : Client :=
  { c with
    taskId := match event.taskId with
      | some id => if id = "" then c.taskId else some id
      | none => c.taskId
    terminal := c.terminal || event.body.isTerminal
    events := c.events ++ [event] }

/-- One round of the loop in `readSse`. -/
def receive (js : Js) (c : Client) (frame : SseFrame) : Client :=
  let c := { c with lastId := (frameNumber js.number frame).getD c.lastId }
  match normalizeAgentEvent js frame with
  | some event => c.handle event
  | none => c

/-- After `readSse` has returned, or thrown if `failed`. -/
def readEnd (c : Client) (first failed : Bool) : Client :=
  if first = true then
    if failed = true ∧ c.taskId = none then c.enter (.threw .connection) else c.enter .looping
  else if failed = true then c.enter .looping
  else { c with attempt := 0, phase := .looping }

/-- The head of the reconnect loop. -/
def loop (c : Client) : Client :=
  if c.terminal = false ∧ c.taskId.isSome = true then
    if maxReconnects ≤ c.attempt then c.enter (.threw .tooManyReconnects)
    else { c with attempt := c.attempt + 1, phase := .connecting }
  else c.enter .returned

end Client

/-- `str(seq)`. -/
def decimal (n : Nat) : Text := Nat.toDigits 10 n

/-- A buffered frame as the client's parser hands it on; `dumps` is `json.dumps`. -/
def wireFrame (dumps : Value → Text) (frame : BufferedFrame) : SseFrame :=
  ⟨some frame.1.event.toList, dumps frame.1.data, some (decimal frame.2)⟩

structure StreamSystem where
  feed : Feed
  client : Client
  /-- How many reconnect attempts in a row have failed. -/
  failures : Nat := 0

/-- The client has sent its request: the run is started and the first subscriber enters. -/
def StreamSystem.init : StreamSystem where
  feed := ({} : Feed).subscribe (-1)
  client := { phase := .reading true 0 0 }

inductive StreamAction
  | produce
  | finish
  | subscribe (lastEventId : Int)
  | resume (k : Nat)
  /-- A step of the generator behind the client's connection. -/
  | serve
  | receive
  | close
  | disconnect (failed : Bool)
  | loop
  | connect
  | refused
  | gone

/-- The subscriber behind the connection. -/
def Client.subscriber (c : Client) : Option Nat :=
  match c.phase with
  | .reading _ k _ => some k
  | _ => none

/-- One step of the system, for a run with the given id and frames. -/
inductive StreamStep (js : Js) (dumps : Value → Text) (maxBuffer : Nat) (runId : String)
    (frames : List Frame) : StreamSystem → StreamAction → StreamSystem → Prop
  | produce {s : StreamSystem} {frame : Frame} (hopen : s.feed.run.done = false)
      (h : frames[s.feed.appended.length]? = some frame) :
      StreamStep js dumps maxBuffer runId frames s .produce
        { s with feed := s.feed.append maxBuffer frame }
  | finish {s : StreamSystem} (hopen : s.feed.run.done = false) (h : s.feed.appended = frames) :
      StreamStep js dumps maxBuffer runId frames s .finish { s with feed := s.feed.finish }
  | subscribe {s : StreamSystem} (lastEventId : Int) :
      StreamStep js dumps maxBuffer runId frames s (.subscribe lastEventId)
        { s with feed := s.feed.subscribe lastEventId }
  | resume {s : StreamSystem} {k : Nat} {feed : Feed} (hother : s.client.subscriber ≠ some k)
      (h : Feed.Step maxBuffer s.feed (.resume k) feed) :
      StreamStep js dumps maxBuffer runId frames s (.resume k) { s with feed := feed }
  | serve {s : StreamSystem} {k : Nat} {feed : Feed} (hmine : s.client.subscriber = some k)
      (h : Feed.Step maxBuffer s.feed (.resume k) feed) :
      StreamStep js dumps maxBuffer runId frames s .serve { s with feed := feed }
  | receive {s : StreamSystem} {first : Bool} {k read : Nat} {sub : Subscriber}
      {frame : BufferedFrame} (hphase : s.client.phase = .reading first k read)
      (hsub : s.feed.subscribers[k]? = some sub) (hframe : sub.yielded[read]? = some frame) :
      StreamStep js dumps maxBuffer runId frames s .receive
        { s with
          client := (s.client.receive js (wireFrame dumps frame)).enter
            (.reading first k (read + 1)) }
  -- the generator has returned and everything it yielded is read
  | close {s : StreamSystem} {first : Bool} {k : Nat} {sub : Subscriber}
      (hphase : s.client.phase = .reading first k sub.yielded.length)
      (hsub : s.feed.subscribers[k]? = some sub) (hreturned : sub.phase = .returned) :
      StreamStep js dumps maxBuffer runId frames s .close
        { s with client := s.client.readEnd first false, failures := 0 }
  -- the connection is lost: `readSse` throws if `failed`, else it sees an end of stream
  | disconnect {s : StreamSystem} {first : Bool} {k read : Nat} (failed : Bool)
      (hphase : s.client.phase = .reading first k read) :
      StreamStep js dumps maxBuffer runId frames s (.disconnect failed)
        { s with
          client := s.client.readEnd first failed
          failures := if first = false ∧ failed = true then s.failures + 1 else 0 }
  | loop {s : StreamSystem} (hphase : s.client.phase = .looping) :
      StreamStep js dumps maxBuffer runId frames s .loop { s with client := s.client.loop }
  | connect {s : StreamSystem} (hphase : s.client.phase = .connecting)
      (htask : s.client.taskId = some runId) :
      StreamStep js dumps maxBuffer runId frames s .connect
        { s with
          feed := s.feed.subscribe s.client.lastId
          client := s.client.enter (.reading false s.feed.subscribers.length 0) }
  | refused {s : StreamSystem} (hphase : s.client.phase = .connecting) :
      StreamStep js dumps maxBuffer runId frames s .refused
        { s with client := s.client.readEnd false true, failures := s.failures + 1 }
  -- 409: no run under this id
  | gone {s : StreamSystem} (hphase : s.client.phase = .connecting)
      (htask : s.client.taskId ≠ some runId) :
      StreamStep js dumps maxBuffer runId frames s .gone
        { s with client := s.client.enter (.threw .notResumable) }

end AgentRoom.Web
