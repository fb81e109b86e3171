import AgentRoom.Server.Compat
import AgentRoom.Properties.Tenants

set_option autoImplicit false

/-! # The compatibility endpoint against `POST /tasks`

The compatibility endpoint checks nothing about a request and assembles nothing for it: of what
`POST /tasks` does for a task it does nothing but run a graph.
-/

namespace AgentRoom

open Posix

/-- The compatibility endpoint rejects a request as `POST /tasks` does, and otherwise runs it on
the requested graph, the tenant's database and the task's own directory. -/
structure CompatAgrees (d : Deployment) (t : FileTree) (b : Bindings) (shared : TaskService)
    (s : ApiState) (sessionId taskId : String) (req : TaskRequest) : Prop where
  rejects : createSessionTask shared s sessionId taskId req = .error 400 ↔
    d.postTask t b s taskId req = .error 400
  graph : ∀ r, createSessionTask shared s sessionId taskId req = .ok r →
    d.server.taskServiceFor req.graph = .ok r.service.graph
  database : ∀ r, createSessionTask shared s sessionId taskId req = .ok r →
    ∃ path t', dbPathFor t d.dbPath req.tenantId = .ok (path, t') ∧
      normalise t.cwd r.service.database = normalise t.cwd path
  root : ∀ r, createSessionTask shared s sessionId taskId req = .ok r →
    r.service.root.resolve t.cwd = enter (baseWorkspace t d.workspaceDir) (segment taskId)

/-! ## What each endpoint does -/

/-- A generated id is the name of a directory of its own. -/
theorem segment_newTaskId {hex : String} (h : IsTaskDigits hex) :
    ∃ n, segment (newTaskId hex) = .into n := by
  have htext : (newTaskId hex).toList = "task-".toList ++ hex.toList := by
    simp [newTaskId]
  have hslash : '/' ∉ (newTaskId hex).toList := by
    rw [htext, List.mem_append]
    rintro (hmem | hmem)
    · revert hmem
      decide
    · have hdigit := h.2 '/' hmem
      revert hdigit
      decide
  have hname : IsName (newTaskId hex).toList := by
    have hlong : 5 ≤ (newTaskId hex).toList.length := by
      rw [htext, List.length_append]
      have htask : "task-".toList.length = 5 := by decide
      omega
    refine ⟨?_, ?_, ?_, hslash⟩
    · intro heq
      rw [heq] at hlong
      simp at hlong
    · intro heq
      rw [heq] at hlong
      simp at hlong
    · intro heq
      rw [heq] at hlong
      simp at hlong
  have hsteps : (Path.parse (newTaskId hex).toList).steps = [.into ⟨_, hname⟩] := by
    exact components_text (.into ⟨_, hname⟩)
  refine ⟨⟨_, hname⟩, ?_⟩
  rw [segment, hsteps]
  rfl

variable {d : Deployment} {t t₀ t₁ : FileTree} {b : Bindings} {shared : TaskService}
  {s : ApiState} {sessionId taskId hex : String} {req : TaskRequest}

/-- The service of the startup. -/
theorem Deployment.sharedService_ok (h : d.sharedService t₀ = .ok (shared, t₁)) :
    d.server.taskServiceFor none = .ok shared.graph ∧ shared.database = d.dbPath ∧
      shared.root = (baseWorkspace t₀ d.workspaceDir).path := by
  obtain ⟨⟨database, t'⟩, hdb, hrest⟩ := Fallible.bind_eq_ok h
  obtain ⟨⟨ws, t''⟩, hws, hrest'⟩ := Fallible.bind_eq_ok hrest
  obtain ⟨g, hg, heq⟩ := Fallible.bind_eq_ok hrest'
  cases heq
  have hdefault := (dbPathFor_default t₀ d.dbPath).symm.trans (Fallible.mapError_eq_ok hdb)
  simp only [Except.ok.injEq, Prod.mk.injEq] at hdefault
  obtain ⟨rfl, rfl⟩ := hdefault
  have hbase := (workspaceDir_spec (Fallible.mapError_eq_ok hws)).1
  exact ⟨Fallible.mapError_eq_ok hg, rfl, by rw [hbase]⟩

/-- An existing session runs every request, on the service of the startup. -/
theorem createSessionTask_eq (h : (s.sessions.get? sessionId).isSome = true) :
    createSessionTask shared s sessionId taskId req
      = .ok { service := shared, config := shared.graph.start taskId req } := if_pos h

/-- A service that cannot be assembled is not the request's fault. -/
theorem Deployment.taskServiceFor_ne_400 (d : Deployment) (t : FileTree) (taskId tenantId : String)
    (graph : Option String) : d.taskServiceFor t taskId tenantId graph ≠ .error 400 := by
  intro h
  rcases Fallible.bind_eq_error h with h | ⟨⟨database, t₁⟩, -, h⟩
  · obtain ⟨_, -, heq⟩ := Fallible.mapError_eq_error h
    cases heq
  · rcases Fallible.bind_eq_error h with h | ⟨⟨ws, t₂⟩, -, h⟩
    · obtain ⟨_, -, heq⟩ := Fallible.mapError_eq_error h
      cases heq
    · rcases Fallible.bind_eq_error h with h | ⟨g, -, h⟩
      · obtain ⟨_, -, heq⟩ := Fallible.mapError_eq_error h
        cases heq
      · cases h

/-- `POST /tasks` answers 400 to a request that fails one of its two checks. -/
theorem Deployment.postTask_eq_400_iff (d : Deployment) (t : FileTree) (b : Bindings)
    (s : ApiState) (taskId : String) (req : TaskRequest) :
    d.postTask t b s taskId req = .error 400 ↔
      ¬ (checkInputGuardrail b req = .ok () ∧ validateGraph req = .ok ()) := by
  have hguardrail : ∀ e, checkInputGuardrail b req = .error e → e.status = 400 := by
    intro e he
    unfold checkInputGuardrail at he
    split at he <;> cases he
    rfl
  have hgraph : ∀ e, validateGraph req = .error e → e.status = 400 := by
    intro e he
    unfold validateGraph at he
    split at he
    · cases he
    · split at he <;> cases he
      rfl
  constructor
  · rintro h ⟨hcheck, hvalid⟩
    unfold postTask at h
    rw [hcheck, hvalid] at h
    rcases Fallible.bind_eq_error h with h | ⟨_, -, h⟩
    · cases h
    · rcases Fallible.bind_eq_error h with h | ⟨_, -, h⟩
      · cases h
      · rcases Fallible.bind_eq_error h with h | ⟨s₁, -, h⟩
        · unfold ApiState.recordSession at h
          split at h <;> cases h
        · rcases Fallible.bind_eq_error h with h | ⟨⟨service, t₁⟩, -, h⟩
          · exact d.taskServiceFor_ne_400 t taskId req.tenantId req.graph h
          · cases h
  · intro h
    unfold postTask
    cases hcheck : checkInputGuardrail b req with
    | error e =>
        have hstatus := hguardrail e hcheck
        simp [Except.mapError, bind, Except.bind, hstatus]
    | ok u =>
        cases hvalid : validateGraph req with
        | error e =>
            have hstatus := hgraph e hvalid
            simp [Except.mapError, bind, Except.bind, hstatus]
        | ok u' => exact absurd ⟨hcheck, hvalid⟩ h

/-! ## Where the two part -/

/-- The rejections agree on the requests that `POST /tasks` does not reject. -/
theorem compat_rejects_iff (hsession : (s.sessions.get? sessionId).isSome = true) :
    (createSessionTask shared s sessionId taskId req = .error 400 ↔
        d.postTask t b s taskId req = .error 400) ↔
      checkInputGuardrail b req = .ok () ∧ validateGraph req = .ok () := by
  have hruns : createSessionTask shared s sessionId taskId req ≠ .error 400 := by
    rw [createSessionTask_eq hsession]
    simp
  rw [d.postTask_eq_400_iff]
  constructor
  · intro h
    by_contra hfails
    exact hruns (h.mpr hfails)
  · intro hpasses
    constructor
    · intro h
      exact absurd h hruns
    · intro h
      exact absurd hpasses h

/-- The graph of the startup is the requested one when the request asks for none, or for the
server's own. -/
theorem compat_graph (hstart : d.sharedService t₀ = .ok (shared, t₁))
    (hgraph : d.server.presetName req.graph = d.server.presetName none) :
    d.server.taskServiceFor req.graph = .ok shared.graph := by
  have hspec : d.server.buildServerSpec req.graph = d.server.buildServerSpec none := by
    unfold Server.buildServerSpec
    rw [hgraph]
  rw [← (Deployment.sharedService_ok hstart).1, Server.taskServiceFor, Server.taskServiceFor, hspec]

/-- The tools of the startup's service work one level above the task's own directory. -/
theorem compat_root_ne (hstart : d.sharedService t₀ = .ok (shared, t₁)) (hcwd : t.cwd = t₀.cwd)
    (hid : IsTaskDigits hex) : shared.root.resolve t.cwd
      ≠ enter (baseWorkspace t d.workspaceDir) (segment (newTaskId hex)) := by
  obtain ⟨-, -, hroot⟩ := Deployment.sharedService_ok hstart
  obtain ⟨n, hn⟩ := segment_newTaskId hid
  rw [hroot, Location.resolve_path, hn, baseWorkspace, baseWorkspace, hcwd]
  intro heq
  have hlen := congrArg List.length heq
  rw [enter, List.length_append, List.length_singleton] at hlen
  omega

/-- **The compatibility endpoint agrees with `POST /tasks` on no request.** -/
theorem compat_never_agrees (hstart : d.sharedService t₀ = .ok (shared, t₁))
    (hcwd : t.cwd = t₀.cwd) (hsession : (s.sessions.get? sessionId).isSome = true)
    (hid : IsTaskDigits hex) :
    ¬ CompatAgrees d t b shared s sessionId (newTaskId hex) req := by
  intro h
  exact compat_root_ne hstart hcwd hid (h.root _ (createSessionTask_eq hsession))

/-! ## Two requests -/

/-- The server of these requests, started in `/srv`, with one session. -/
def compatState : ApiState := { sessions := [{ id := "sess-1", name := "s" }] }

def plainRequest : TaskRequest := { title := "t", description := "d" }

/-- A request that asks for nothing special. -/
theorem compat_never_agrees_plain :
    ∃ shared t, ({} : Deployment).sharedService srvTree = .ok (shared, t) ∧
      ¬ CompatAgrees {} srvTree {} shared compatState "sess-1" (newTaskId "0123456789ab")
        plainRequest :=
  ⟨_, _, rfl, compat_never_agrees rfl rfl (by decide) (by decide)⟩

/-- A request that `POST /tasks` rejects with 400 runs. -/
theorem compat_runs_rejected :
    ∃ shared t r, ({} : Deployment).sharedService srvTree = .ok (shared, t) ∧
      ({} : Deployment).postTask srvTree {} compatState (newTaskId "0123456789ab")
        { title := "t", description := "d", graph := some "solo" } = .error 400 ∧
      createSessionTask shared compatState "sess-1" (newTaskId "0123456789ab")
        { title := "t", description := "d", graph := some "solo" } = .ok r ∧
      ¬ CompatAgrees {} srvTree {} shared compatState "sess-1" (newTaskId "0123456789ab")
        { title := "t", description := "d", graph := some "solo" } := by
  refine ⟨_, _, _, rfl, ?_, rfl, ?_⟩
  · rfl
  · intro h
    have hrejected := h.rejects.mpr rfl
    cases hrejected

end AgentRoom
