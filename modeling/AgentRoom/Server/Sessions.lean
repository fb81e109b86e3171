import AgentRoom.Server.Api
import AgentRoom.Server.Runs
import AgentRoom.Server.Tenancy

set_option autoImplicit false

/-! # Sessions, runs and the requests about them

The session table says which tenant a task belongs to, and the run manager holds the runs of
streamed tasks. The two change independently: any row can be deleted, and a finished run is
evicted when a later one starts. `ApiState.handle` is what one request does between its checks
and its answer.
-/

namespace AgentRoom

/-! ## The session table -/

/-- `SessionRecord`, without its time stamp. -/
structure SessionRecord where
  id : String
  name : String
  tenantId : String := defaultTenantId
  deriving DecidableEq, Repr

/-- The rows of `agent_room_sessions`; the ids are the keys. -/
abbrev SessionTable := List SessionRecord

/-- Why `SessionStore.create` raises. -/
inductive SessionFault
  | emptyName
  | duplicateId
  deriving DecidableEq, Repr

namespace SessionTable

/-- `SessionStore.get`. -/
def get? (t : SessionTable) (sessionId : String) : Option SessionRecord :=
  t.find? (fun r => r.id == sessionId)

/-- `SessionStore.create`. -/
def create (t : SessionTable) (name sessionId tenantId : String) :
    Except SessionFault SessionTable :=
  let clean := Py.strip name
  if clean = "" then .error .emptyName
  else if (t.get? sessionId).isSome then .error .duplicateId
  else .ok (t ++ [{ id := sessionId, name := clean, tenantId := tenantId }])

/-- The rows that `SessionStore.delete` leaves. -/
def delete (t : SessionTable) (sessionId : String) : SessionTable :=
  t.filter (fun r => r.id != sessionId)

variable {t t' : SessionTable} {name id tenantId : String}

/-- A row is created under a new id, and no other row changes. -/
theorem create_ok (h : t.create name id tenantId = .ok t') :
    t.get? id = none ∧
      t'.get? id = some { id := id, name := Py.strip name, tenantId := tenantId } ∧
      ∀ other, other ≠ id → t'.get? other = t.get? other := by
  unfold create at h
  dsimp only at h
  split at h
  · cases h
  · split at h
    · cases h
    · rename_i hnone
      cases h
      have hnone : t.get? id = none := Option.not_isSome_iff_eq_none.mp hnone
      refine ⟨hnone, ?_, ?_⟩
      · rw [get?, List.find?_append, ← get?, hnone]
        simp
      · intro other hne
        rw [get?, List.find?_append, ← get?]
        simp [Ne.symm hne]

theorem get?_delete_self : (t.delete id).get? id = none := by
  simp [get?, delete, List.find?_eq_none]

theorem get?_delete_ne {other : String} (hne : other ≠ id) :
    (t.delete id).get? other = t.get? other := by
  have hpred : (fun r : SessionRecord => decide ((r.id != id) = true ∧ (r.id == other) = true))
      = fun r => r.id == other := by
    funext r
    by_cases hr : r.id = other
    · simp [hr, hne]
    · simp [hr]
  rw [get?, get?, delete, List.find?_filter, hpred]

end SessionTable

/-! ## The run manager -/

/-- `_Run` of a streamed task, with the tenant whose service its producer closes over. -/
structure HeldRun where
  tenantId : String
  state : Manager := {}

/-- `RunManager`. -/
structure RunManager where
  runs : String → Option HeldRun := fun _ => none
  order : List String := []

/-- `DEFAULT_MAX_BUFFER`. -/
def defaultMaxBuffer : Nat := 5000

/-- `DEFAULT_KEEP_DONE`. -/
def defaultKeepDone : Nat := 32

namespace RunManager

/-- `done_ids` in `_evict_done`. -/
def doneIds (m : RunManager) : List String :=
  m.order.filter (fun id => match m.runs id with
    | some run => run.state.feed.run.done
    | none => false)

/-- `_evict_done`. -/
def evictDone (keepDone : Nat) (m : RunManager) : RunManager :=
  let victims := m.doneIds.take (m.doneIds.length - keepDone)
  { runs := fun id => if id ∈ victims then none else m.runs id
    order := victims.foldl List.erase m.order }

/-- The entry of a run replaced. -/
def set (m : RunManager) (taskId : String) (run : HeldRun) : RunManager :=
  { m with runs := fun id => if id = taskId then some run else m.runs id }

/-- `start`. -/
def start (keepDone : Nat) (m : RunManager) (taskId tenantId : String) : RunManager :=
  let m := (m.evictDone keepDone).set taskId { tenantId := tenantId }
  { m with order := m.order ++ [taskId] }

/-- `subscribe`, for a task whose run is held. -/
def subscribe (m : RunManager) (taskId : String) (lastEventId : Int) : RunManager :=
  match m.runs taskId with
  | none => m
  | some run =>
      m.set taskId
        { run with state := { run.state with feed := run.state.feed.subscribe lastEventId } }

/-- `cancel`: `none` when there is no unfinished run. -/
def cancel (m : RunManager) (taskId : String) : Option RunManager :=
  match m.runs taskId with
  | none => none
  | some run =>
      if run.state.feed.run.done then none
      else some (m.set taskId { run with state := run.state.cancel })

variable {m m' : RunManager} {id taskId tenantId : String} {run : HeldRun}

theorem runs_set (m : RunManager) (taskId : String) (run : HeldRun) (id : String) :
    (m.set taskId run).runs id = if id = taskId then some run else m.runs id := rfl

/-- An eviction only takes runs away. -/
theorem runs_of_evictDone {keepDone : Nat} (h : (m.evictDone keepDone).runs id = some run) :
    m.runs id = some run := by
  simp only [evictDone] at h
  split at h
  · cases h
  · exact h

/-- A held run after a start: the new one, or an earlier one. -/
theorem runs_of_start {keepDone : Nat}
    (h : (m.start keepDone taskId tenantId).runs id = some run) :
    (id = taskId ∧ run.tenantId = tenantId) ∨ m.runs id = some run := by
  have hset : ((m.evictDone keepDone).set taskId { tenantId := tenantId }).runs id = some run := h
  rw [runs_set] at hset
  split at hset
  · rename_i hid
    cases hset
    exact .inl ⟨hid, rfl⟩
  · exact .inr (runs_of_evictDone hset)

/-- What happens inside one run keeps its tenant and the other runs. -/
theorem tenant_of_set {state : Manager} (hrun : m.runs taskId = some run) {r : HeldRun}
    (h : (m.set taskId { run with state := state }).runs id = some r) :
    ∃ r', m.runs id = some r' ∧ r'.tenantId = r.tenantId := by
  rw [runs_set] at h
  split at h
  · rename_i hid
    cases h
    exact ⟨run, hid ▸ hrun, rfl⟩
  · exact ⟨r, h, rfl⟩

theorem tenant_of_subscribe {lastEventId : Int} {r : HeldRun}
    (h : (m.subscribe taskId lastEventId).runs id = some r) :
    ∃ r', m.runs id = some r' ∧ r'.tenantId = r.tenantId := by
  unfold subscribe at h
  split at h
  · exact ⟨r, h, rfl⟩
  · rename_i run hrun
    exact tenant_of_set hrun h

theorem tenant_of_cancel (hm : m.cancel taskId = some m') {r : HeldRun}
    (h : m'.runs id = some r) : ∃ r', m.runs id = some r' ∧ r'.tenantId = r.tenantId := by
  unfold cancel at hm
  split at hm
  · cases hm
  · rename_i run hrun
    split at hm
    · cases hm
    · cases hm
      exact tenant_of_set hrun h

end RunManager

/-! ## Requests -/

/-- The session table, the run manager, and the streamed tasks whose session is recorded and
whose run is not started yet. -/
structure ApiState where
  sessions : SessionTable := []
  manager : RunManager := {}
  recorded : List (String × String) := []

/-- A request with the ids it generates. -/
inductive ApiRequest
  | createTask (taskId : String) (req : TaskRequest)
  | streamTask (taskId : String) (req : TaskRequest)
  | createSession (sessionId name : String)
  | getSession (sessionId : String)
  | deleteSession (sessionId : String)
  | events (taskId tenantId : String) (lastEventId : Int)
  | cancel (taskId tenantId : String)

/-- The status a failing request is answered with. -/
def ServerError.status : ServerError → Nat
  | .guardrail _ | .graphNotSelectable => 400
  | _ => 500

/-- The status of a failing `SessionStore.create` in `create_session`. -/
def SessionFault.status : SessionFault → Nat
  | .emptyName => 422
  | .duplicateId => 500

/-- `req.title.strip() or task_id`. -/
def sessionName (taskId : String) (req : TaskRequest) : String :=
  if Py.strip req.title = "" then taskId else Py.strip req.title

namespace ApiState

/-- The session row of a new task. -/
def recordSession (s : ApiState) (taskId : String) (req : TaskRequest) : Except Nat ApiState :=
  match s.sessions.create (sessionName taskId req) taskId req.tenantId with
  | .error _ => .error 500
  | .ok sessions => .ok { s with sessions := sessions }

/-- `_check_tenant_owns_task`. -/
def checkTenantOwnsTask (s : ApiState) (taskId tenantId : String) : Except Nat Unit :=
  match s.sessions.get? taskId with
  | some record => if record.tenantId ≠ tenantId then .error 404 else .ok ()
  | none => .ok ()

/-- What a request does, or the status it is refused with. A streamed task is started in a
step of its own. The row of a task is read and its run looked up in one step. -/
def handle (srv : Server) (b : Bindings) (s : ApiState) : ApiRequest → Except Nat ApiState
  | .createTask taskId req => do
      (checkInputGuardrail b req).mapError ServerError.status
      (validateGraph req).mapError ServerError.status
      s.recordSession taskId req
  | .streamTask taskId req => do
      let _ ← (srv.createTask b taskId req).mapError ServerError.status
      let s ← s.recordSession taskId req
      .ok { s with recorded := s.recorded ++ [(taskId, req.tenantId)] }
  | .createSession sessionId name =>
      if name.length < 1 ∨ 200 < name.length then .error 422
      else
        match s.sessions.create name sessionId defaultTenantId with
        | .error e => .error e.status
        | .ok sessions => .ok { s with sessions := sessions }
  | .getSession sessionId => if (s.sessions.get? sessionId).isSome then .ok s else .error 404
  | .deleteSession sessionId =>
      if (s.sessions.get? sessionId).isSome then
        .ok { s with sessions := s.sessions.delete sessionId }
      else .error 404
  | .events taskId tenantId lastEventId => do
      s.checkTenantOwnsTask taskId tenantId
      if (s.manager.runs taskId).isSome then
        .ok { s with manager := s.manager.subscribe taskId lastEventId }
      else .error 409
  | .cancel taskId tenantId => do
      s.checkTenantOwnsTask taskId tenantId
      match s.manager.cancel taskId with
      | none => .error 409
      | some manager => .ok { s with manager := manager }

end ApiState

/-! ## The server's steps -/

inductive ApiAction
  | request (r : ApiRequest)
  /-- `run_manager.start(task_id, produce)` and the subscription of its client. -/
  | start (taskId tenantId : String)
  /-- A step inside a held run: its task, a subscriber or a waiting cancellation goes on. -/
  | background (taskId : String) (a : ManagerAction)

/-- Not one of the two steps that only a request takes. -/
def ManagerAction.isInternal : ManagerAction → Bool
  | .cancel | .subscribe _ => false
  | .drive _ | .cancelAtEntry | .cancelReturns | .resume _ => true

/-- One step of the server. A refused request changes nothing. -/
inductive ApiStep (srv : Server) (b : Bindings) : ApiState → ApiAction → ApiState → Prop
  | accepted {s s' : ApiState} {r : ApiRequest} : s.handle srv b r = .ok s' →
      ApiStep srv b s (.request r) s'
  | refused {s : ApiState} {r : ApiRequest} {status : Nat} : s.handle srv b r = .error status →
      ApiStep srv b s (.request r) s
  | start {s : ApiState} {taskId tenantId : String} : (taskId, tenantId) ∈ s.recorded →
      ApiStep srv b s (.start taskId tenantId)
        { s with
          manager := (s.manager.start defaultKeepDone taskId tenantId).subscribe taskId (-1)
          recorded := s.recorded.erase (taskId, tenantId) }
  | background {s : ApiState} {taskId : String} {run : HeldRun} {a : ManagerAction}
      {state : Manager} : s.manager.runs taskId = some run → a.isInternal = true →
      Manager.Step defaultMaxBuffer taskId run.state a state →
      ApiStep srv b s (.background taskId a)
        { s with manager := s.manager.set taskId { run with state := state } }

end AgentRoom
