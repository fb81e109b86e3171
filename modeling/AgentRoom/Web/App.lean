import AgentRoom.Web.TaskStore

set_option autoImplicit false

/-! # The page

What the header shows is derived from the store (`deriveStatus`). `startTask` follows a new task
and `selectSession` opens one of the history. The timeline, the list of sessions and the layout of
the page are left out.
-/

namespace AgentRoom.Web

/-! ## The status in the header -/

inductive UiStatus
  | planned | planning | inProgress | submittedForReview | revisionRequired | approved | delivering
  | needUserDecision | resuming | completed | failed | disconnected | interrupted
  deriving DecidableEq, Repr

structure StatusInput where
  serverStatus : Option ServerStatus := none
  activeRole : Option Role := none
  lastRole : Option Role := none
  reviewDecision : Option String := none
  connection : Option ConnectionState := none
  resuming : Bool := false
  hasStarted : Bool := false
  interrupted : Bool := false

def deriveStatus (input : StatusInput) : UiStatus :=
  if input.serverStatus = some .failed then .failed
  else if input.serverStatus = some .completed then .completed
  else if input.interrupted then .interrupted
  else if input.resuming then .resuming
  else if input.serverStatus = some .awaitingUser ∨
      input.reviewDecision = some "need_user_decision" then .needUserDecision
  else if input.connection = some .offline ∨ input.connection = some .recovering then .disconnected
  else if input.reviewDecision = some "revision_required" then .revisionRequired
  else if input.activeRole = some .planner then .planning
  else if input.activeRole = some .developer then .inProgress
  else if input.activeRole = some .reviewer then .submittedForReview
  else if input.activeRole = some .delivery then .delivering
  else if input.reviewDecision = some "approved" ∨ input.reviewDecision = some "approve" then
    .approved
  else if input.lastRole = some .developer then .submittedForReview
  else if input.hasStarted then .inProgress
  else .planned

/-- `{ ...o, [key]: v }`. -/
def Record.set (o : Record) (key : String) (v : Value) : Record :=
  if (o.get key).isSome then o.map fun field => if field.1 = key then (key, v) else field
  else o ++ [(key, v)]

theorem Record.get_set_of_ne (o : Record) {key other : String} (v : Value) (h : key ≠ other) :
    (o.set key v).get other = o.get other := by
  have hmap : Record.get (o.map fun field => if field.1 = key then (key, v) else field) other =
      o.get other := by
    induction o with
    | nil => rfl
    | cons field rest ih =>
        simp only [Record.get, List.map_cons, List.find?_cons] at ih ⊢
        by_cases hkey : field.1 = key
        · have hother : (field.1 == other) = false := by
            rw [hkey]
            exact beq_false_of_ne h
          simp only [if_pos hkey, beq_false_of_ne h, hother]
          exact ih
        · simp only [if_neg hkey]
          split
          · rfl
          · exact ih
  have hsnoc : Record.get (o ++ [(key, v)]) other = o.get other := by
    simp [Record.get, List.find?_append, h]
  unfold Record.set
  split_ifs
  · exact hmap
  · exact hsnoc

namespace TaskStore

/-- What the page hands to `deriveStatus`. -/
def statusInput (s : TaskStore) : StatusInput where
  serverStatus := s.serverStatus
  activeRole := s.activeRole
  lastRole := s.lastRole
  reviewDecision := asString s.reviewDecision
  connection := some s.connection
  resuming := s.resuming
  hasStarted := s.hasStarted
  interrupted := s.interrupted

def uiStatus (s : TaskStore) : UiStatus := deriveStatus s.statusInput

/-! ## Following a task -/

def setConnection (s : TaskStore) (connection : ConnectionState) (error : Option String) :
    TaskStore :=
  { s with connection, error }

def markInterrupted (s : TaskStore) : TaskStore :=
  { s with interrupted := true, connection := .idle }

section Handlers

variable (js : Js)

/-- What `startTask` does with an event. -/
def onEvent (s : TaskStore) (event : AgentEvent) : TaskStore :=
  match event.body with
  | .nodeStart => (s.applyEvent js event).setConnection .live none
  | _ => s.applyEvent js event

/-- `startTask`, as far as the stream has come. -/
def startTask (instruction : String) (events : List AgentEvent) : TaskStore :=
  events.foldl (onEvent js) ((reset instruction).setConnection .connecting none)

/-- `setConnection(taskId ? 'recovering' : 'offline', message)`. -/
def connectionLost (s : TaskStore) (message : String) : TaskStore :=
  s.setConnection (if s.taskId.any (· ≠ "") then .recovering else .offline) (some message)

/-- `startTask`, when the stream has ended. -/
def streamEnded (s : TaskStore) : TaskStore :=
  if s.serverStatus ≠ some .completed ∧ s.serverStatus ≠ some .failed ∧
      s.serverStatus ≠ some .awaitingUser then s.connectionLost "事件流提前结束"
  else s

/-! ## Opening a task -/

/-- `selectSession`, when `getTask` returns `result`. -/
def selectSession (id : String) (title : Option String) (result : Record) : TaskStore :=
  let opened := ((reset (title.getD "")).setConnection .recovering none).applySnapshot js result
  let named :=
    if !truthy (result.get "task_id") && !truthy (result.get "id") then
      opened.applySnapshot js (result.set "task_id" (.str id))
    else opened
  if asString (result.get "status") = some "running" then named.markInterrupted else named

end Handlers

end TaskStore

end AgentRoom.Web
