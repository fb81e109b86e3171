import AgentRoom.Server.Sessions

set_option autoImplicit false

/-! # All tasks of a server

A server keeps one checkpoint database for each tenant, one session table for all of them, and any
number of calls of its services under way. A call works on one thread of one database: `run`
writes the checkpoint its task starts from; `resume` reads the latest checkpoint, writes its
update and loads the latest checkpoint again; both then write a checkpoint after each superstep of
a copy of their own. Between any two of these steps other requests are answered and other calls go
on.
-/

namespace AgentRoom

open Posix

/-! ## Databases -/

/-- The working directory of a server and the `db_path` of its settings. -/
structure Site where
  cwd : Location
  basePath : String

/-- The file that a tenant's entry of the pool is opened over. -/
def Site.database (site : Site) (tenantId : String) : Location :=
  if tenantId = defaultTenantId then normalise site.cwd site.basePath
  else (Path.parse tenantId.toList).resolve (tenantsDir site.cwd site.basePath) ++ [dbName]

/-- It is the file that `db_path_for` names. -/
theorem Site.database_eq {t t' : FileTree} {basePath tenantId path : String}
    (h : dbPathFor t basePath tenantId = .ok (path, t')) :
    normalise t.cwd path = Site.database ⟨t.cwd, basePath⟩ tenantId := by
  by_cases hid : tenantId = defaultTenantId
  · subst hid
    rw [dbPathFor_default] at h
    cases h
    exact (if_pos rfl).symm
  · rw [dbPathFor_spec h hid]
    exact (if_neg hid).symm

/-! ## Calls -/

/-- What a call of a service is for. -/
inductive CallKind
  | run (req : TaskRequest)
  | resume (decision : String)

/-- Where a call stands. -/
inductive CallPhase
  /-- Before the graph of its service is compiled. -/
  | accepted
  | compiled (g : Graph)
  /-- Between the read and the write of `aupdate_state`. -/
  | updating (g : Graph) (config : Config)
  /-- Before `ainvoke(None)` loads the checkpoint. -/
  | updated (g : Graph)
  | executing (g : Graph) (config : Config)

/-- A call of `AgentRoomService.run`, `stream` or `resume`. -/
structure Call where
  tenantId : String
  taskId : String
  /-- The `graph` that `task_service_for` is asked for. -/
  graph : Option String
  kind : CallKind
  phase : CallPhase := .accepted

/-- A thread that nothing was written to. -/
def Config.absent : Config :=
  { values := { taskId := "", title := "", description := "" }, next := none }

inductive CallEvent
  | compiled
  | started
  | read
  | wrote (decision : String)
  | loaded
  | executed (log : StepLog)
  /-- The last snapshot, which answers the request. -/
  | returned (result : TaskResult)
  /-- An exception, or the cancellation of the task. -/
  | ended

/-- One step of a call, and of the thread it works on. The thread of a new task is empty. -/
inductive Call.Step (srv : Server) (b : Bindings) :
    Call → Option Config → CallEvent → Option Call → Option Config → Prop
  | compile {c : Call} {cell : Option Config} {g : Graph} : c.phase = .accepted →
      srv.taskServiceFor c.graph = .ok g →
      Step srv b c cell .compiled (some { c with phase := .compiled g }) cell
  | start {c : Call} {g : Graph} {req : TaskRequest} : c.phase = .compiled g →
      c.kind = .run req →
      Step srv b c none .started
        (some { c with phase := .executing g (g.start c.taskId req) }) (some (g.start c.taskId req))
  | read {c : Call} {cell : Option Config} {g : Graph} {d : String} {config : Config} :
      c.phase = .compiled g → c.kind = .resume d →
      g.beginResume (cell.getD .absent) (.str d) .reviewer = .ok config →
      Step srv b c cell .read (some { c with phase := .updating g config }) cell
  | write {c : Call} {cell : Option Config} {g : Graph} {d : String} {config : Config} :
      c.phase = .updating g config → c.kind = .resume d →
      Step srv b c cell (.wrote d) (some { c with phase := .updated g }) (some config)
  | load {c : Call} {g : Graph} {config : Config} : c.phase = .updated g →
      Step srv b c (some config) .loaded (some { c with phase := .executing g config })
        (some config)
  | superstep {c : Call} {cell : Option Config} {g : Graph} {config config' : Config} {w : World}
      {e : StepLog} : c.phase = .executing g config → g.superstep b w config = .ok (e, config') →
      Step srv b c cell (.executed e) (some { c with phase := .executing g config' })
        (some config')
  | return_ {c : Call} {cell : Option Config} {g : Graph} {config : Config} :
      c.phase = .executing g config → (config.next = none ∨ config.interrupt.isSome) →
      Step srv b c cell (.returned (materializeResult c.taskId (cell.getD .absent))) none cell
  | end_ {c : Call} {cell : Option Config} : Step srv b c cell .ended none cell

/-- A call stays with its tenant, its task and its purpose. -/
theorem Call.Step.same {srv : Server} {b : Bindings} {c c' : Call} {cell cell' : Option Config}
    {e : CallEvent} (h : Call.Step srv b c cell e (some c') cell') :
    c'.tenantId = c.tenantId ∧ c'.taskId = c.taskId ∧ c'.kind = c.kind ∧ c'.graph = c.graph := by
  generalize hnext : some c' = next at h
  cases h with
  | return_ | end_ => cases hnext
  | compile | start | read | write | load | superstep =>
      cases hnext
      exact ⟨rfl, rfl, rfl, rfl⟩

/-! ## Requests -/

/-- The state of a server: the session table, the latest checkpoint of every thread of every
database, and the calls under way. -/
structure Host where
  sessions : SessionTable := []
  checkpoints : Location → String → Option Config := fun _ _ => none
  calls : List Call := []

/-- A request with the ids it generates. -/
inductive HostRequest
  | createTask (taskId : String) (req : TaskRequest)
  | streamTask (taskId : String) (req : TaskRequest)
  | getTask (taskId tenantId : String)
  | resumeTask (taskId tenantId decision : String)
  | createSession (sessionId name : String)
  | deleteSession (sessionId : String)
  | createSessionTask (sessionId taskId : String) (req : TaskRequest)
  | resumeSessionTask (sessionId taskId decision : String)
  /-- `GET /tasks/{id}/stream`, up to its first snapshot. -/
  | streamTaskGet (taskId : String)

inductive HostReply
  /-- A call is under way, and its end answers the request. -/
  | started
  | result (r : TaskResult)
  | session (sessionId name : String)
  | deleted

namespace Host

variable (srv : Server) (b : Bindings) (site : Site) (h : Host)

/-- `service.snapshot(task_id)`, over the database of a tenant. -/
def snapshot (tenantId taskId : String) : TaskResult :=
  materializeResult taskId ((h.checkpoints (site.database tenantId) taskId).getD .absent)

/-- `_check_tenant_owns_task`. -/
def checkTenantOwnsTask (taskId tenantId : String) : Except Nat Unit :=
  ({ sessions := h.sessions } : ApiState).checkTenantOwnsTask taskId tenantId

def startCall (c : Call) : Host := { h with calls := h.calls ++ [c] }

/-- The session row of a new task, under the tenant of its request. -/
def recordSession (taskId : String) (req : TaskRequest) : Except Nat Host :=
  match h.sessions.create (sessionName taskId req) taskId req.tenantId with
  | .error _ => .error 500
  | .ok sessions => .ok { h with sessions := sessions }

/-- What a request does and how it is answered, or the status it is refused with. The row of a
task and its snapshot are read in one step. -/
def handle : HostRequest → Except Nat (HostReply × Host)
  | .createTask taskId req => do
      (checkInputGuardrail b req).mapError ServerError.status
      (validateGraph req).mapError ServerError.status
      let h ← h.recordSession taskId req
      .ok (.started, h.startCall ⟨req.tenantId, taskId, req.graph, .run req, .accepted⟩)
  | .streamTask taskId req => do
      (checkInputGuardrail b req).mapError ServerError.status
      (validateGraph req).mapError ServerError.status
      -- the service is compiled before the row is written
      let g ← (srv.taskServiceFor req.graph).mapError ServerError.status
      let h ← h.recordSession taskId req
      .ok (.started, h.startCall ⟨req.tenantId, taskId, req.graph, .run req, .compiled g⟩)
  | .getTask taskId tenantId => do
      h.checkTenantOwnsTask taskId tenantId
      let result := h.snapshot site tenantId taskId
      if result.artifacts.isEmpty && result.events.isEmpty && (h.sessions.get? taskId).isNone then
        .error 404
      else .ok (.result result, h)
  | .resumeTask taskId tenantId decision => do
      h.checkTenantOwnsTask taskId tenantId
      .ok (.started, h.startCall ⟨tenantId, taskId, none, .resume decision, .accepted⟩)
  | .createSession sessionId name =>
      if name.length < 1 ∨ 200 < name.length then .error 422
      else
        match h.sessions.create name sessionId defaultTenantId with
        | .error e => .error e.status
        | .ok sessions => .ok (.session sessionId (Py.strip name), { h with sessions := sessions })
  | .deleteSession sessionId =>
      if (h.sessions.get? sessionId).isSome then
        .ok (.deleted, { h with sessions := h.sessions.delete sessionId })
      else .error 404
  -- the service of the startup: the default graph over the default tenant's database
  | .createSessionTask sessionId taskId req =>
      if (h.sessions.get? sessionId).isSome then
        .ok (.started, h.startCall ⟨defaultTenantId, taskId, none, .run req, .accepted⟩)
      else .error 404
  | .resumeSessionTask sessionId taskId decision =>
      if (h.sessions.get? sessionId).isNone then .error 404
      else if Py.strip decision = "" then .error 422
      else .ok (.started, h.startCall ⟨defaultTenantId, taskId, none, .resume decision, .accepted⟩)
  | .streamTaskGet taskId =>
      let result := h.snapshot site defaultTenantId taskId
      if result.events.isEmpty && result.artifacts.isEmpty then .error 404
      else .ok (.result result, h)

/-- The thread of a task, written. -/
def store (database : Location) (taskId : String) (cell : Option Config) : Host :=
  { h with
    checkpoints := fun l id =>
      if l = database ∧ id = taskId then cell else h.checkpoints l id }

end Host

/-- The tenant in whose name a request is made: the one it names, the owner of the session it
deletes, and for the endpoints without a tenant the default one. -/
def HostRequest.actor (h : Host) : HostRequest → String
  | .createTask _ req | .streamTask _ req => req.tenantId
  | .getTask _ tenantId | .resumeTask _ tenantId _ => tenantId
  | .deleteSession sessionId =>
      match h.sessions.get? sessionId with
      | some record => record.tenantId
      | none => defaultTenantId
  | .createSession _ _ | .createSessionTask _ _ _ | .resumeSessionTask _ _ _ | .streamTaskGet _ =>
      defaultTenantId

/-- The owner of the session that a request for a task of its own goes through. -/
def HostRequest.through (h : Host) : HostRequest → Option String
  | .createSessionTask sessionId _ _ | .resumeSessionTask sessionId _ _ =>
      (h.sessions.get? sessionId).map SessionRecord.tenantId
  | _ => none

/-- A call as a request leaves it. A resume is never asked for a mode. -/
structure Call.New (srv : Server) (c : Call) : Prop where
  phase : c.phase = .accepted ∨ ∃ g, c.phase = .compiled g ∧ srv.taskServiceFor c.graph = .ok g
  graph : ∀ d, c.kind = .resume d → c.graph = none

namespace Host

variable {srv : Server} {b : Bindings} {site : Site} {h h' : Host} {r : HostRequest}
  {reply : HostReply} {taskId : String}

theorem recordSession_ok {req : TaskRequest} (hok : h.recordSession taskId req = .ok h') :
    ∃ sessions, h.sessions.create (sessionName taskId req) taskId req.tenantId = .ok sessions ∧
      h' = { h with sessions := sessions } := by
  unfold recordSession at hok
  split at hok
  · cases hok
  · rename_i sessions hcreate
    cases hok
    exact ⟨sessions, hcreate, rfl⟩

/-- How an accepted request changes the session table. -/
inductive Touched (tenantId : String) (t : SessionTable) : SessionTable → Prop
  | kept : Touched tenantId t t
  | created {name id : String} {t' : SessionTable} :
      t.create name id tenantId = .ok t' → Touched tenantId t t'
  | deleted {id : String} {record : SessionRecord} :
      t.get? id = some record → record.tenantId = tenantId → Touched tenantId t (t.delete id)

/-- **What an accepted request does**, one case for each endpoint. -/
inductive Accepted (srv : Server) (b : Bindings) (site : Site) (h : Host) :
    HostRequest → HostReply → Host → Prop
  | createTask {taskId : String} {req : TaskRequest} {h' : Host}
      (hguard : (checkInputGuardrail b req).mapError ServerError.status = .ok ())
      (hvalid : (validateGraph req).mapError ServerError.status = .ok ())
      (hrecord : h.recordSession taskId req = .ok h') :
      Accepted srv b site h (.createTask taskId req) .started
        (h'.startCall ⟨req.tenantId, taskId, req.graph, .run req, .accepted⟩)
  | streamTask {taskId : String} {req : TaskRequest} {g : Graph} {h' : Host}
      (hguard : (checkInputGuardrail b req).mapError ServerError.status = .ok ())
      (hvalid : (validateGraph req).mapError ServerError.status = .ok ())
      (hgraph : (srv.taskServiceFor req.graph).mapError ServerError.status = .ok g)
      (hrecord : h.recordSession taskId req = .ok h') :
      Accepted srv b site h (.streamTask taskId req) .started
        (h'.startCall ⟨req.tenantId, taskId, req.graph, .run req, .compiled g⟩)
  | getTask {taskId tenantId : String} (hcheck : h.checkTenantOwnsTask taskId tenantId = .ok ())
      (hthere : ((h.snapshot site tenantId taskId).artifacts.isEmpty &&
        (h.snapshot site tenantId taskId).events.isEmpty &&
          (h.sessions.get? taskId).isNone) = false) :
      Accepted srv b site h (.getTask taskId tenantId)
        (.result (h.snapshot site tenantId taskId)) h
  | resumeTask {taskId tenantId decision : String}
      (hcheck : h.checkTenantOwnsTask taskId tenantId = .ok ()) :
      Accepted srv b site h (.resumeTask taskId tenantId decision) .started
        (h.startCall ⟨tenantId, taskId, none, .resume decision, .accepted⟩)
  | createSession {sessionId name : String} {sessions : SessionTable}
      (hlen : ¬ (name.length < 1 ∨ 200 < name.length))
      (hcreate : h.sessions.create name sessionId defaultTenantId = .ok sessions) :
      Accepted srv b site h (.createSession sessionId name) (.session sessionId (Py.strip name))
        { h with sessions := sessions }
  | deleteSession {sessionId : String} {record : SessionRecord}
      (hrecord : h.sessions.get? sessionId = some record) :
      Accepted srv b site h (.deleteSession sessionId) .deleted
        { h with sessions := h.sessions.delete sessionId }
  | createSessionTask {sessionId taskId : String} {req : TaskRequest} {record : SessionRecord}
      (hrecord : h.sessions.get? sessionId = some record) :
      Accepted srv b site h (.createSessionTask sessionId taskId req) .started
        (h.startCall ⟨defaultTenantId, taskId, none, .run req, .accepted⟩)
  | resumeSessionTask {sessionId taskId decision : String} {record : SessionRecord}
      (hrecord : h.sessions.get? sessionId = some record) (hdecision : Py.strip decision ≠ "") :
      Accepted srv b site h (.resumeSessionTask sessionId taskId decision) .started
        (h.startCall ⟨defaultTenantId, taskId, none, .resume decision, .accepted⟩)
  | streamTaskGet {taskId : String}
      (hthere : ((h.snapshot site defaultTenantId taskId).events.isEmpty &&
        (h.snapshot site defaultTenantId taskId).artifacts.isEmpty) = false) :
      Accepted srv b site h (.streamTaskGet taskId)
        (.result (h.snapshot site defaultTenantId taskId)) h

theorem accepted_of_handle (hok : h.handle srv b site r = .ok (reply, h')) :
    Accepted srv b site h r reply h' := by
  cases r with
  | createTask taskId req =>
      obtain ⟨_, hguard, hok⟩ := Fallible.bind_eq_ok hok
      obtain ⟨_, hvalid, hok⟩ := Fallible.bind_eq_ok hok
      obtain ⟨_, hrecord, hok⟩ := Fallible.bind_eq_ok hok
      cases hok
      exact .createTask hguard hvalid hrecord
  | streamTask taskId req =>
      obtain ⟨_, hguard, hok⟩ := Fallible.bind_eq_ok hok
      obtain ⟨_, hvalid, hok⟩ := Fallible.bind_eq_ok hok
      obtain ⟨g, hgraph, hok⟩ := Fallible.bind_eq_ok hok
      obtain ⟨_, hrecord, hok⟩ := Fallible.bind_eq_ok hok
      cases hok
      exact .streamTask hguard hvalid hgraph hrecord
  | getTask taskId tenantId =>
      obtain ⟨_, hcheck, hok⟩ := Fallible.bind_eq_ok hok
      dsimp only at hok
      split at hok
      · cases hok
      · cases hok
        exact .getTask hcheck (eq_false_of_ne_true ‹_›)
  | resumeTask taskId tenantId decision =>
      obtain ⟨_, hcheck, hok⟩ := Fallible.bind_eq_ok hok
      cases hok
      exact .resumeTask hcheck
  | createSession sessionId name =>
      simp only [handle] at hok
      split at hok
      · cases hok
      · split at hok
        · cases hok
        · cases hok
          exact .createSession ‹_› ‹_›
  | deleteSession sessionId =>
      simp only [handle] at hok
      split at hok
      · obtain ⟨record, hrecord⟩ := Option.isSome_iff_exists.mp ‹_›
        cases hok
        exact .deleteSession hrecord
      · cases hok
  | createSessionTask sessionId taskId req =>
      simp only [handle] at hok
      split at hok
      · obtain ⟨record, hrecord⟩ := Option.isSome_iff_exists.mp ‹_›
        cases hok
        exact .createSessionTask hrecord
      · cases hok
  | resumeSessionTask sessionId taskId decision =>
      cases hrow : h.sessions.get? sessionId with
      | none => simp [handle, hrow] at hok
      | some record =>
          simp only [handle, hrow, Option.isNone_some, Bool.false_eq_true, if_false] at hok
          split at hok
          · cases hok
          · cases hok
            exact .resumeSessionTask hrow ‹_›
  | streamTaskGet taskId =>
      simp only [handle] at hok
      split at hok
      · cases hok
      · cases hok
        exact .streamTaskGet (eq_false_of_ne_true ‹_›)

theorem Accepted.handle_eq (hok : Accepted srv b site h r reply h') :
    h.handle srv b site r = .ok (reply, h') := by
  cases hok with
  | createTask hguard hvalid hrecord =>
      rw [handle, Fallible.ok_bind hguard, Fallible.ok_bind hvalid, Fallible.ok_bind hrecord]
  | streamTask hguard hvalid hgraph hrecord =>
      rw [handle, Fallible.ok_bind hguard, Fallible.ok_bind hvalid, Fallible.ok_bind hgraph,
        Fallible.ok_bind hrecord]
  | getTask hcheck hthere =>
      rw [handle, Fallible.ok_bind hcheck]
      exact if_neg (ne_true_of_eq_false hthere)
  | resumeTask hcheck => rw [handle, Fallible.ok_bind hcheck]
  | createSession hlen hcreate =>
      rw [handle, if_neg hlen, hcreate]
  | deleteSession hrecord | createSessionTask hrecord =>
      rw [handle, if_pos (by rw [hrecord]; rfl)]
  | resumeSessionTask hrecord hdecision =>
      rw [handle, if_neg (by simp [hrecord]), if_neg hdecision]
  | streamTaskGet hthere => exact if_neg (ne_true_of_eq_false hthere)

/-- **The frame of a request.** It touches one row, of the tenant it is made for, and adds calls of
that tenant; no thread changes. -/
theorem frame (hok : h.handle srv b site r = .ok (reply, h')) :
    ∃ sessions added, h' = { h with sessions := sessions, calls := h.calls ++ added } ∧
      Touched (r.actor h) h.sessions sessions ∧
        ∀ c ∈ added, c.tenantId = r.actor h ∧ c.New srv := by
  cases accepted_of_handle hok with
  | createTask _ _ hrecord =>
      obtain ⟨sessions, hcreate, rfl⟩ := recordSession_ok hrecord
      refine ⟨sessions, [_], rfl, .created hcreate, List.forall_mem_singleton.mpr ⟨rfl, .inl rfl, ?_⟩⟩
      intro d hd
      cases hd
  | streamTask _ _ hgraph hrecord =>
      obtain ⟨sessions, hcreate, rfl⟩ := recordSession_ok hrecord
      have hcompiled := Fallible.mapError_eq_ok hgraph
      refine ⟨sessions, [_], rfl, .created hcreate,
        List.forall_mem_singleton.mpr ⟨rfl, .inr ⟨_, rfl, hcompiled⟩, ?_⟩⟩
      intro d hd
      cases hd
  | resumeTask | createSessionTask | resumeSessionTask =>
      exact ⟨h.sessions, [_], rfl, .kept,
        List.forall_mem_singleton.mpr ⟨rfl, .inl rfl, fun _ _ => rfl⟩⟩
  | createSession _ hcreate => exact ⟨_, [], by simp, .created hcreate, by simp⟩
  | deleteSession hrecord =>
      refine ⟨_, [], by simp, .deleted hrecord ?_, by simp⟩
      simp [HostRequest.actor, hrecord]
  | getTask | streamTaskGet => exact ⟨h.sessions, [], by simp, .kept, by simp⟩

end Host

/-! ## Steps -/

inductive HostAction
  | accepted (actor : String) (through : Option String) (r : HostRequest) (reply : HostReply)
  | refused (r : HostRequest) (status : Nat)
  | call (tenantId taskId : String) (e : CallEvent)

/-- One step of the server. A refused request changes nothing. -/
inductive HostStep (srv : Server) (b : Bindings) (site : Site) : Host → HostAction → Host → Prop
  | accepted {h h' : Host} {r : HostRequest} {reply : HostReply} :
      h.handle srv b site r = .ok (reply, h') →
      HostStep srv b site h (.accepted (r.actor h) (r.through h) r reply) h'
  | refused {h : Host} {r : HostRequest} {status : Nat} :
      h.handle srv b site r = .error status → HostStep srv b site h (.refused r status) h
  -- the database of the tenant does not open
  | unavailable {h : Host} {r : HostRequest} : HostStep srv b site h (.refused r 500) h
  | call {h : Host} {before after : List Call} {c : Call} {next : Option Call} {e : CallEvent}
      {cell : Option Config} : h.calls = before ++ c :: after →
      Call.Step srv b c (h.checkpoints (site.database c.tenantId) c.taskId) e next cell →
      HostStep srv b site h (.call c.tenantId c.taskId e)
        ({ h with calls := before ++ (next.toList ++ after) }.store (site.database c.tenantId)
          c.taskId cell)

theorem HostStep.of_handle {srv : Server} {b : Bindings} {site : Site} {h h' : Host}
    {r : HostRequest} {reply : HostReply} {actor : String} {through : Option String}
    (hok : h.handle srv b site r = .ok (reply, h')) (hactor : r.actor h = actor)
    (hthrough : r.through h = through) :
    HostStep srv b site h (.accepted actor through r reply) h' := by
  subst hactor hthrough
  exact .accepted hok

end AgentRoom
