import AgentRoom.Server.Sessions
import AgentRoom.Server.Workspace

set_option autoImplicit false

/-! # Services, and the two endpoints that start a task

A service executes one graph over one tenant's database, with tools rooted at one directory.
`POST /tasks` puts a service together for its task; the compatibility endpoint
`POST /api/agent-room/sessions/{id}/tasks` runs every task on the service of the startup.
-/

namespace AgentRoom

open Posix

/-- A server with the two paths of its settings. -/
structure Deployment where
  server : Server := {}
  dbPath : String := "./agent_room.db"
  workspaceDir : String := "./workspace"

/-- `AgentRoomService` with what its graph was compiled with: the database of the checkpointer
(the tenant's memory lies beside it) and the root of the tools. -/
structure TaskService where
  graph : Graph
  database : String
  root : Path

/-- A task that has been accepted. -/
structure StartedTask where
  service : TaskService
  config : Config

/-- `AgentRoomService.new_task_id`, from the twelve digits it draws. -/
def newTaskId (hex : String) : String := "task-" ++ hex

/-- `uuid.uuid4().hex[:12]`. -/
def IsTaskDigits (hex : String) : Prop :=
  hex.length = 12 ∧ ∀ c ∈ hex.toList, c ∈ "0123456789abcdef".toList

-- the digits of `hex` are tested, not every character there is
instance (hex : String) : Decidable (IsTaskDigits hex) :=
  @instDecidableAnd _ _ _ (List.decidableBAll _ hex.toList)

namespace Deployment

variable (d : Deployment)

/-- `app.state.service`, which the startup builds: the default graph and tenant, with tools at
the workspace directory itself. -/
def sharedService (t : FileTree) : Except Nat (TaskService × FileTree) := do
  let (database, t) ← (dbPathFor t d.dbPath defaultTenantId).mapError (fun _ => 500)
  let (ws, t) ← (AgentRoom.workspaceDir t d.workspaceDir).mapError (fun _ => 500)
  let g ← (d.server.taskServiceFor none).mapError (fun _ => 500)
  return ({ graph := g, database := database, root := ws.path }, t)

/-- `task_service_for`. The pool's cached entries are the ones it would open again. -/
def taskServiceFor (t : FileTree) (taskId tenantId : String) (graph : Option String) :
    Except Nat (TaskService × FileTree) := do
  let (database, t) ← (dbPathFor t d.dbPath tenantId).mapError (fun _ => 500)
  let (ws, t) ← (taskWorkspace t d.workspaceDir taskId).mapError (fun _ => 500)
  let g ← (d.server.taskServiceFor graph).mapError (fun _ => 500)
  return ({ graph := g, database := database, root := ws }, t)

/-- `POST /tasks`, up to the point where the graph is executed. -/
def postTask (t : FileTree) (b : Bindings) (s : ApiState) (taskId : String) (req : TaskRequest) :
    Except Nat (StartedTask × ApiState × FileTree) := do
  (checkInputGuardrail b req).mapError ServerError.status
  (validateGraph req).mapError ServerError.status
  let s ← s.recordSession taskId req
  let (service, t) ← d.taskServiceFor t taskId req.tenantId req.graph
  return ({ service := service, config := service.graph.start taskId req }, s, t)

end Deployment

/-- `create_session_task`, up to the point where the graph is executed. -/
def createSessionTask (shared : TaskService) (s : ApiState) (sessionId taskId : String)
    (req : TaskRequest) : Except Nat StartedTask :=
  if (s.sessions.get? sessionId).isSome then
    .ok { service := shared, config := shared.graph.start taskId req }
  else .error 404

end AgentRoom
