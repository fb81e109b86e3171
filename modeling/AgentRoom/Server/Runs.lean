import AgentRoom.World
import AgentRoom.Lib.Runs

set_option autoImplicit false

/-! # Detached runs and their replay buffer

A run is driven by a background task that appends numbered frames to a bounded buffer. Any
number of subscribers replay the buffer from an id on and then tail it until the run is done.
The lock of a run is only held between two suspension points, never across one, so that each
locked block is one step here. `RunBuffer` is what the lock protects, `Feed` adds the
subscribers, `Manager` the background task and the callers of `cancel`.
-/

namespace AgentRoom

/-- A formatted frame. `data` is the value whose JSON text is sent. -/
structure Frame where
  event : String
  data : Value

/-- `event in ("task_finished", "task_error")`. -/
def Frame.isTerminal (frame : Frame) : Bool :=
  frame.event == "task_finished" || frame.event == "task_error"

/-- The frames of a run end with their only terminal one. -/
def OneTerminal (frames : List Frame) : Prop :=
  ∃ before last, frames = before ++ [last] ∧ last.isTerminal = true ∧
    ∀ frame ∈ before, frame.isTerminal = false

/-- `{**frame, "id": str(seq)}`. -/
abbrev BufferedFrame := Frame × Nat

/-! ## The buffer -/

/-- `_Run`, without its task and its condition variable. -/
structure RunBuffer where
  events : List BufferedFrame := []
  done : Bool := false
  /-- The number of the first event still in `events`. -/
  baseSeq : Nat := 0

namespace RunBuffer

/-- `run.base_seq + len(run.events)`. -/
def endSeq (run : RunBuffer) : Nat := run.baseSeq + run.events.length

/-- The locked block of `_append`. -/
def append (maxBuffer : Nat) (run : RunBuffer) (frame : Frame) : RunBuffer :=
  let events := run.events ++ [(frame, run.endSeq)]
  if maxBuffer < events.length then
    let drop := events.length - maxBuffer
    { run with events := events.drop drop, baseSeq := run.baseSeq + drop }
  else { run with events := events }

/-- The locked block at the end of `_drive`. -/
def finish (run : RunBuffer) : RunBuffer := { run with done := true }

/-- `run.events[start:] if start >= 0 else run.events[:]`. -/
def slice (run : RunBuffer) (idx : Int) : List BufferedFrame :=
  let start := idx - run.baseSeq
  if 0 ≤ start then run.events.drop start.toNat else run.events

end RunBuffer

/-! ## Subscribers -/

/-- Where the generator of `subscribe` stands. -/
inductive SubscriberPhase
  /-- About to take the lock. -/
  | looping (idx : Int)
  /-- In `run.cond.wait()`, not yet notified. -/
  | waiting (idx : Int)
  /-- Outside the lock, with the frames of the slice still to yield. -/
  | yielding (frames : List BufferedFrame) (bufferedEnd : Nat) (done : Bool)
  | returned

structure Subscriber where
  lastEventId : Int
  phase : SubscriberPhase
  /-- What it has yielded so far. -/
  yielded : List BufferedFrame := []

namespace Subscriber

/-- The first step of `subscribe`. -/
def enter (run : RunBuffer) (lastEventId : Int) : Subscriber where
  lastEventId := lastEventId
  phase := .looping (max (lastEventId + 1) run.baseSeq)

/-- One step of `subscribe`, when it can take one. -/
def resume (run : RunBuffer) (sub : Subscriber) : Option Subscriber :=
  match sub.phase with
  | .looping idx =>
      if (run.endSeq : Int) ≤ idx ∧ run.done = false then some { sub with phase := .waiting idx }
      else some { sub with phase := .yielding (run.slice idx) run.endSeq run.done }
  | .waiting _ => none
  | .yielding (frame :: frames) bufferedEnd done =>
      some { sub with
        phase := .yielding frames bufferedEnd done
        yielded := sub.yielded ++ [frame] }
  -- `idx` is `buffered_end` here, so only `done` decides
  | .yielding [] bufferedEnd done =>
      some { sub with phase := if done then .returned else .looping bufferedEnd }
  | .returned => none

/-- `run.cond.notify_all()`, as one subscriber sees it. -/
def notify (sub : Subscriber) : Subscriber :=
  match sub.phase with
  | .waiting idx => { sub with phase := .looping idx }
  | _ => sub

end Subscriber

/-! ## The buffer and its subscribers -/

structure Feed where
  run : RunBuffer := {}
  subscribers : List Subscriber := []
  /-- Every frame ever appended, in order. -/
  appended : List Frame := []

namespace Feed

/-- `_append`. -/
def append (maxBuffer : Nat) (s : Feed) (frame : Frame) : Feed where
  run := s.run.append maxBuffer frame
  subscribers := s.subscribers.map Subscriber.notify
  appended := s.appended ++ [frame]

/-- The end of `_drive`. -/
def finish (s : Feed) : Feed :=
  { s with run := s.run.finish, subscribers := s.subscribers.map Subscriber.notify }

/-- A call of `subscribe`, up to its first lock. -/
def subscribe (s : Feed) (lastEventId : Int) : Feed :=
  { s with subscribers := s.subscribers ++ [Subscriber.enter s.run lastEventId] }

end Feed

inductive FeedAction
  | append (frame : Frame)
  | finish
  | subscribe (lastEventId : Int)
  | resume (k : Nat)

/-- One step of one party. Nothing is appended once the run is done. -/
inductive Feed.Step (maxBuffer : Nat) : Feed → FeedAction → Feed → Prop
  | append {s : Feed} (frame : Frame) (h : s.run.done = false) :
      Step maxBuffer s (.append frame) (s.append maxBuffer frame)
  | finish {s : Feed} (h : s.run.done = false) : Step maxBuffer s .finish s.finish
  | subscribe {s : Feed} (lastEventId : Int) :
      Step maxBuffer s (.subscribe lastEventId) (s.subscribe lastEventId)
  | resume {s : Feed} {k : Nat} {sub sub' : Subscriber} (hsub : s.subscribers[k]? = some sub)
      (h : sub.resume s.run = some sub') :
      Step maxBuffer s (.resume k) { s with subscribers := s.subscribers.set k sub' }

/-! ## The background task -/

/-- How `produce()` ends. -/
inductive ProducerExit
  | ended
  | cancelledError
  | budgetExceeded (dimension : String) (limit actual : Value) (text : String)
  | guardrailTripwire (finding : GuardrailFinding)
  | exception (text : String)
  /-- An exception that is no `Exception`, such as `SystemExit`. -/
  | baseException

/-- `_cancel_data`. -/
def cancelData (taskId : String) : Value :=
  .dict [("type", .str "task_error"), ("task_id", .str taskId), ("error", .str "任务已被用户停止"),
    ("cancelled", .bool true)]

/-- `_budget_data`. -/
def budgetData (taskId dimension : String) (limit actual : Value) (text : String) : Value :=
  .dict [("type", .str "task_error"), ("task_id", .str taskId), ("error", .str text),
    ("budget_exceeded", .bool true), ("budget_dimension", .str dimension),
    ("budget_limit", limit), ("budget_actual", actual)]

/-- `_guardrail_data`. -/
def guardrailData (taskId : String) (finding : GuardrailFinding) : Value :=
  .dict [("type", .str "task_error"), ("task_id", .str taskId), ("error", .str finding.tripwireText),
    ("guardrail_blocked", .bool true), ("guardrail_category", .str finding.category.text),
    ("guardrail_checkpoint", .str finding.checkpoint.text)]

/-- `_error_data`. -/
def errorData (taskId text : String) : Value :=
  .dict [("type", .str "task_error"), ("task_id", .str taskId), ("error", .str text)]

/-- The frame `_drive` adds when `produce()` raises. -/
def ProducerExit.terminal (taskId : String) : ProducerExit → Option Frame
  | .ended => none
  | .cancelledError => some ⟨"task_error", cancelData taskId⟩
  | .budgetExceeded dimension limit actual text =>
      some ⟨"task_error", budgetData taskId dimension limit actual text⟩
  | .guardrailTripwire finding => some ⟨"task_error", guardrailData taskId finding⟩
  | .exception text => some ⟨"task_error", errorData taskId text⟩
  | .baseException => none

/-- What `produce()` does between two suspension points: the frames it yields, and how it ends
if it does. An append does not suspend. -/
structure Segment where
  frames : List Frame
  exit : Option ProducerExit

/-- The `asyncio` task of `_drive`. The flag of an unfinished task is a requested cancellation
that it has not seen yet. -/
inductive DriveTask
  | created (cancelling : Bool)
  | suspended (cancelling : Bool)
  | finished
  /-- Cancelled before its first step: the body never ran. -/
  | cancelledAtEntry
  /-- Ended by an exception that `_drive` does not handle. -/
  | crashed
  deriving DecidableEq

/-- `task.done()`. -/
def DriveTask.done : DriveTask → Bool
  | .created _ | .suspended _ => false
  | .finished | .cancelledAtEntry | .crashed => true

/-- `task.cancel()`. -/
def DriveTask.cancel : DriveTask → DriveTask
  | .created _ => .created true
  | .suspended _ => .suspended true
  | task => task

/-- One run of a `RunManager`: its feed, its task, the calls of `cancel` that await the task
and what the calls that returned have answered. -/
structure Manager where
  feed : Feed := {}
  task : DriveTask := .created false
  awaiting : Nat := 0
  answers : List Bool := []

namespace Manager

/-- The end of `_drive`, after `produce()` has ended. -/
def close (maxBuffer : Nat) (taskId : String) (exit : ProducerExit) (feed : Feed) : Feed :=
  match exit.terminal taskId with
  | some frame => (feed.append maxBuffer frame).finish
  | none => feed.finish

/-- `_drive`, from one suspension point to the next. A cancellation that was requested while
the task was suspended is raised inside `produce()`, whose answer to it is its next segment. -/
def runSegment (maxBuffer : Nat) (taskId : String) (s : Manager) (seg : Segment) : Manager :=
  let feed := seg.frames.foldl (Feed.append maxBuffer) s.feed
  match seg.exit with
  | none => { s with feed := feed, task := .suspended false }
  | some .baseException => { s with feed := feed, task := .crashed }
  | some exit => { s with feed := close maxBuffer taskId exit feed, task := .finished }

/-- `cancel`, up to `await run.task` or its return. -/
def cancel (s : Manager) : Manager :=
  if s.feed.run.done then { s with answers := s.answers ++ [false] }
  else if s.task.done then { s with answers := s.answers ++ [true] }
  else { s with task := s.task.cancel, awaiting := s.awaiting + 1 }

end Manager

inductive ManagerAction
  | drive (seg : Segment)
  | cancelAtEntry
  | cancel
  | cancelReturns
  | subscribe (lastEventId : Int)
  | resume (k : Nat)

/-- One step of the scheduler. -/
inductive Manager.Step (maxBuffer : Nat) (taskId : String) :
    Manager → ManagerAction → Manager → Prop
  | first {s : Manager} (seg : Segment) (h : s.task = .created false) :
      Step maxBuffer taskId s (.drive seg) (s.runSegment maxBuffer taskId seg)
  | next {s : Manager} {cancelling : Bool} (seg : Segment) (h : s.task = .suspended cancelling) :
      Step maxBuffer taskId s (.drive seg) (s.runSegment maxBuffer taskId seg)
  -- a task cancelled before its first step raises at the entry of its coroutine
  | cancelAtEntry {s : Manager} (h : s.task = .created true) :
      Step maxBuffer taskId s .cancelAtEntry { s with task := .cancelledAtEntry }
  | cancel {s : Manager} : Step maxBuffer taskId s .cancel s.cancel
  -- an exception other than the suppressed `CancelledError` passes on to the caller
  | cancelReturns {s : Manager} (hawait : 0 < s.awaiting) (h : s.task.done = true) :
      Step maxBuffer taskId s .cancelReturns
        { s with
          awaiting := s.awaiting - 1
          answers := if s.task = .crashed then s.answers else s.answers ++ [true] }
  | subscribe {s : Manager} (lastEventId : Int) :
      Step maxBuffer taskId s (.subscribe lastEventId)
        { s with feed := s.feed.subscribe lastEventId }
  | resume {s : Manager} {k : Nat} {feed : Feed} (h : Feed.Step maxBuffer s.feed (.resume k) feed) :
      Step maxBuffer taskId s (.resume k) { s with feed := feed }

end AgentRoom
