import AgentRoom.Server.Sessions

set_option autoImplicit false

/-! # Who reaches a held run

The tenant of a run is looked up in the session table. As long as the row of a task is there it
names the tenant the run was started for; once it is deleted the check lets everyone through.
-/

namespace AgentRoom

open Transition

/-- Every held run turns the requests of other tenants away: no subscription, no cancellation. -/
def ApiState.Guarded (srv : Server) (b : Bindings) (s : ApiState) : Prop :=
  ∀ taskId run tenantId, s.manager.runs taskId = some run → tenantId ≠ run.tenantId →
    (∀ lastEventId, s.handle srv b (.events taskId tenantId lastEventId) = .error 404) ∧
      s.handle srv b (.cancel taskId tenantId) = .error 404

/-- A task whose run is held, or about to be started. -/
def ApiState.Live (s : ApiState) (taskId : String) : Prop :=
  (s.manager.runs taskId).isSome ∨ ∃ tenantId, (taskId, tenantId) ∈ s.recorded

/-- A step that does not delete the session of a live task. -/
def KeepingStep (srv : Server) (b : Bindings) (s : ApiState) (a : ApiAction) (s' : ApiState) :
    Prop :=
  ApiStep srv b s a s' ∧ ∀ taskId, a = .request (.deleteSession taskId) → ¬ s.Live taskId

/-- The row of a task names a tenant. -/
def ApiState.OwnedBy (s : ApiState) (taskId tenantId : String) : Prop :=
  ∃ record, s.sessions.get? taskId = some record ∧ record.tenantId = tenantId

/-- Every live task has its row. -/
structure ApiState.Owned (s : ApiState) : Prop where
  held : ∀ taskId run, s.manager.runs taskId = some run → s.OwnedBy taskId run.tenantId
  recorded : ∀ taskId tenantId, (taskId, tenantId) ∈ s.recorded → s.OwnedBy taskId tenantId

namespace ApiState

variable {srv : Server} {b : Bindings} {s s' : ApiState} {taskId tenantId : String}

/-! ## What a request leaves behind -/

/-- The check refuses a tenant that the row does not name. -/
theorem checkTenantOwnsTask_of_ownedBy (h : s.OwnedBy taskId tenantId) {other : String}
    (hne : other ≠ tenantId) : s.checkTenantOwnsTask taskId other = .error 404 := by
  obtain ⟨record, hrecord, rfl⟩ := h
  simp [checkTenantOwnsTask, hrecord, Ne.symm hne]

/-- Without a row the check refuses nobody. -/
theorem checkTenantOwnsTask_of_none (h : s.sessions.get? taskId = none) (tenantId : String) :
    s.checkTenantOwnsTask taskId tenantId = .ok () := by
  simp [checkTenantOwnsTask, h]

/-- A new row leaves the owners of other tasks alone. -/
theorem OwnedBy.of_create {sessions : SessionTable} {name id owner : String}
    (h : s.OwnedBy taskId tenantId) (hcreate : s.sessions.create name id owner = .ok sessions)
    (hs : s'.sessions = sessions) : s'.OwnedBy taskId tenantId := by
  obtain ⟨record, hrecord, htenant⟩ := h
  obtain ⟨hnone, -, hother⟩ := SessionTable.create_ok hcreate
  have hne : taskId ≠ id := by
    rintro rfl
    rw [hnone] at hrecord
    cases hrecord
  exact ⟨record, by rw [hs, hother _ hne, hrecord], htenant⟩

/-- Recording a session touches nothing but the table, where the new row names the tenant. -/
theorem recordSession_ok {req : TaskRequest} (h : s.recordSession taskId req = .ok s') :
    s'.manager = s.manager ∧ s'.recorded = s.recorded ∧ s'.OwnedBy taskId req.tenantId ∧
      ∀ id owner, s.OwnedBy id owner → s'.OwnedBy id owner := by
  unfold recordSession at h
  split at h
  · cases h
  · rename_i sessions hcreate
    cases h
    obtain ⟨-, hnew, -⟩ := SessionTable.create_ok hcreate
    exact ⟨rfl, rfl, ⟨_, hnew, rfl⟩, fun id owner howned => howned.of_create hcreate rfl⟩

/-- A state with the same live tasks, whose rows are kept, or with fewer of them. -/
theorem Owned.of_frame (h : s.Owned)
    (hruns : ∀ id run, s'.manager.runs id = some run →
      ∃ run', s.manager.runs id = some run' ∧ run'.tenantId = run.tenantId)
    (hrecorded : ∀ p ∈ s'.recorded, p ∈ s.recorded)
    (hrows : ∀ id owner, s.OwnedBy id owner → s'.OwnedBy id owner) : s'.Owned := by
  constructor
  · intro id run hrun
    obtain ⟨run', hrun', htenant⟩ := hruns id run hrun
    exact hrows _ _ (htenant ▸ h.held id run' hrun')
  · intro id owner hmem
    exact hrows _ _ (h.recorded id owner (hrecorded _ hmem))

/-- A task that is about to be started has the row that was just recorded. -/
theorem Owned.recordSession {req : TaskRequest} (h : s.Owned)
    (hrecord : s.recordSession taskId req = .ok s') :
    Owned { s' with recorded := s'.recorded ++ [(taskId, req.tenantId)] } := by
  obtain ⟨hm, hr, hnew, hrows⟩ := recordSession_ok hrecord
  constructor
  · intro id run hrun
    exact hrows _ _ (h.held id run (hm ▸ hrun))
  · intro id owner hmem
    rcases List.mem_append.mp hmem with hmem | hmem
    · exact hrows _ _ (h.recorded id owner (hr ▸ hmem))
    · cases List.mem_singleton.mp hmem
      exact hnew

/-- The live tasks keep their rows when the session of another one is deleted. -/
theorem Owned.deleteSession {sessionId : String} (h : s.Owned) (hgone : ¬ s.Live sessionId) :
    Owned { s with sessions := s.sessions.delete sessionId } := by
  have hrow : ∀ {id owner}, s.Live id → s.OwnedBy id owner →
      OwnedBy { s with sessions := s.sessions.delete sessionId } id owner := by
    rintro id owner hlive ⟨record, hrecord, htenant⟩
    have hne : id ≠ sessionId := by
      rintro rfl
      exact hgone hlive
    exact ⟨record, by rw [SessionTable.get?_delete_ne hne, hrecord], htenant⟩
  constructor
  · intro id run hrun
    exact hrow (.inl (Option.isSome_iff_exists.mpr ⟨run, hrun⟩)) (h.held id run hrun)
  · intro id owner hmem
    exact hrow (.inr ⟨owner, hmem⟩) (h.recorded id owner hmem)

/-- What a request does to the owners, one case for each endpoint. -/
theorem Owned.handle {r : ApiRequest} (h : s.Owned) (hok : s.handle srv b r = .ok s')
    (hkeep : ∀ taskId, r = .deleteSession taskId → ¬ s.Live taskId) : s'.Owned := by
  cases r with
  | createTask taskId req =>
      obtain ⟨-, -, hok⟩ := Fallible.bind_eq_ok hok
      obtain ⟨-, -, hok⟩ := Fallible.bind_eq_ok hok
      obtain ⟨hm, hr, -, hrows⟩ := recordSession_ok hok
      exact h.of_frame (fun id run hrun => ⟨run, hm ▸ hrun, rfl⟩) (fun p hp => hr ▸ hp) hrows
  | streamTask taskId req =>
      obtain ⟨-, -, hok⟩ := Fallible.bind_eq_ok hok
      obtain ⟨s₁, hs₁, hok⟩ := Fallible.bind_eq_ok hok
      cases hok
      exact h.recordSession hs₁
  | createSession sessionId name =>
      simp only [ApiState.handle] at hok
      split at hok
      · cases hok
      · split at hok
        · cases hok
        · rename_i sessions hcreate
          cases hok
          exact h.of_frame (fun id run hrun => ⟨run, hrun, rfl⟩) (fun p hp => hp)
            (fun id owner howned => howned.of_create hcreate rfl)
  | getSession sessionId =>
      simp only [ApiState.handle] at hok
      split at hok
      · cases hok
        exact h
      · cases hok
  | deleteSession sessionId =>
      simp only [ApiState.handle] at hok
      split at hok
      · cases hok
        exact h.deleteSession (hkeep sessionId rfl)
      · cases hok
  | events taskId tenantId lastEventId =>
      obtain ⟨-, -, hok⟩ := Fallible.bind_eq_ok hok
      split at hok
      · cases hok
        exact h.of_frame (fun id run hrun => RunManager.tenant_of_subscribe hrun) (fun p hp => hp)
          (fun _ _ howned => howned)
      · cases hok
  | cancel taskId tenantId =>
      obtain ⟨-, -, hok⟩ := Fallible.bind_eq_ok hok
      split at hok
      · cases hok
      · rename_i manager hcancel
        cases hok
        exact h.of_frame (fun id run hrun => RunManager.tenant_of_cancel hcancel hrun)
          (fun p hp => hp) (fun _ _ howned => howned)

/-- **The step lemma**: as long as no live task loses its row, every live task has one. -/
theorem Owned.step {a : ApiAction} (h : s.Owned) (hstep : KeepingStep srv b s a s') :
    s'.Owned := by
  obtain ⟨hstep, hkeep⟩ := hstep
  cases hstep with
  | accepted hok =>
      exact h.handle hok (fun taskId hr => hkeep taskId (congrArg ApiAction.request hr))
  | refused => exact h
  | @start taskId tenantId hmem =>
      constructor
      · intro id run hrun
        obtain ⟨run', hrun', htenant⟩ := RunManager.tenant_of_subscribe hrun
        rw [← htenant]
        rcases RunManager.runs_of_start hrun' with ⟨rfl, htenant'⟩ | hold
        · rw [htenant']
          exact h.recorded _ _ hmem
        · exact h.held _ _ hold
      · intro id owner hrec
        exact h.recorded id owner (List.mem_of_mem_erase hrec)
  | background hrun _ _ =>
      exact h.of_frame (fun id run hset => RunManager.tenant_of_set hrun hset) (fun p hp => hp)
        (fun _ _ howned => howned)

/-- An owned run turns other tenants away. -/
theorem Owned.guarded (h : s.Owned) (srv : Server) (b : Bindings) : s.Guarded srv b := by
  intro taskId run tenantId hrun hne
  have hcheck := checkTenantOwnsTask_of_ownedBy (h.held taskId run hrun) hne
  constructor
  · intro lastEventId
    exact Fallible.error_bind hcheck
  · exact Fallible.error_bind hcheck

/-- **A held run is reachable only under its own tenant** as long as no session of a live task
is deleted, whatever the requests, their tenants and their order. -/
theorem held_run_guarded {sessions : SessionTable} {l : List ApiAction}
    (hrun : Run (KeepingStep srv b) { sessions := sessions } l s) : s.Guarded srv b := by
  have howned : s.Owned := by
    refine hrun.invariant (fun s a s' h hstep => h.step hstep) ⟨?_, ?_⟩
    · intro id run hnone
      cases hnone
    · intro id owner hmem
      cases hmem
  exact howned.guarded srv b

/-- Without its row a held run is everyone's. -/
theorem not_guarded_of_delete {run : HeldRun} (hrun : s.manager.runs taskId = some run)
    (hdelete : s.handle srv b (.deleteSession taskId) = .ok s') (tenantId : String) :
    ∃ s'', s'.handle srv b (.events taskId tenantId (-1)) = .ok s'' := by
  simp only [ApiState.handle] at hdelete
  split at hdelete
  · cases hdelete
    have hnone := @SessionTable.get?_delete_self s.sessions taskId
    refine ⟨{ s with
      sessions := s.sessions.delete taskId
      manager := s.manager.subscribe taskId (-1) }, ?_⟩
    simp only [ApiState.handle]
    rw [Fallible.ok_bind (checkTenantOwnsTask_of_none hnone tenantId)]
    simp [hrun]
  · cases hdelete

/-! ## A task of one tenant -/

/-- A task streamed for the tenant `acme`. -/
def acmeRequest : TaskRequest := { title := "t", description := "d", tenantId := "acme" }

/-- Its session is recorded, and its run is started. -/
theorem streamed_history :
    ∃ l s run, Run (KeepingStep {} {}) {} l s ∧ s.manager.runs "task-1" = some run ∧
      run.tenantId = "acme" ∧ (s.sessions.get? "task-1").isSome = true := by
  have hrecorded : ∃ s₁, handle {} {} {} (.streamTask "task-1" acmeRequest) = .ok s₁ ∧
      s₁ = { sessions := [{ id := "task-1", name := "t", tenantId := "acme" }]
             recorded := [("task-1", "acme")] } := ⟨_, rfl, rfl⟩
  obtain ⟨s₁, hok, rfl⟩ := hrecorded
  refine ⟨_, _, _, ((Run.single ⟨.accepted hok, ?_⟩).snoc ⟨.start List.mem_cons_self, ?_⟩), rfl, rfl,
    by decide⟩
  · intro taskId h
    cases h
  · intro taskId h
    cases h

/-- The tenant `default` is turned away from it. -/
theorem held_run_guarded_streamed :
    ∃ s run, s.manager.runs "task-1" = some run ∧ run.tenantId = "acme" ∧
      handle {} {} s (.events "task-1" "default" (-1)) = .error 404 ∧
      handle {} {} s (.cancel "task-1" "default") = .error 404 := by
  obtain ⟨l, s, run, hrun, hheld, htenant, -⟩ := streamed_history
  have hne : "default" ≠ run.tenantId := by
    rw [htenant]
    decide
  obtain ⟨hevents, hcancel⟩ := held_run_guarded hrun "task-1" run "default" hheld hne
  exact ⟨s, run, hheld, htenant, hevents (-1), hcancel⟩

/-- After `DELETE /api/agent-room/sessions/task-1` the tenant `default` subscribes to the run of
`acme`. -/
theorem deleted_session_opens_run :
    ∃ l s s' run, Run (ApiStep {} {}) {} l s ∧ s.manager.runs "task-1" = some run ∧
      run.tenantId = "acme" ∧ handle {} {} s (.events "task-1" "default" (-1)) = .ok s' ∧
      ¬ s.Guarded {} {} := by
  obtain ⟨l, s, run, hrun, hheld, htenant, hrow⟩ := streamed_history
  have hdelete : s.handle {} {} (.deleteSession "task-1")
      = .ok { s with sessions := s.sessions.delete "task-1" } := if_pos hrow
  obtain ⟨s', hevents⟩ := not_guarded_of_delete hheld hdelete "default"
  have hopened := (hrun.mono (fun _ _ _ hstep => hstep.1)).snoc (.accepted hdelete)
  refine ⟨_, _, s', run, hopened, hheld, htenant, hevents, ?_⟩
  intro hguarded
  have hne : "default" ≠ run.tenantId := by
    rw [htenant]
    decide
  have hrefused := (hguarded "task-1" run "default" hheld hne).1 (-1)
  rw [hevents] at hrefused
  cases hrefused

end ApiState

end AgentRoom
