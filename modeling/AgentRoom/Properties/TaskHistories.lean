import AgentRoom.Properties.Isolation

set_option autoImplicit false

/-! # One task among many

The histories of a single task (`HttpStep`) know nothing of the other tasks of a server, of calls
that end half-way, or of the two times a resume reads the checkpoint. As long as no two calls work
on the thread of a task at once, they are exactly what a server does to that thread.
-/

namespace AgentRoom

open Posix Transition

/-- A thread of one database. -/
structure Thread where
  database : Location
  taskId : String

/-- The latest checkpoint of a thread. -/
def Host.cell (h : Host) (x : Thread) : Option Config := h.checkpoints x.database x.taskId

/-- A call works on the thread. -/
def Call.on (site : Site) (x : Thread) (c : Call) : Bool :=
  site.database c.tenantId == x.database && c.taskId == x.taskId

/-- At most one call is under way on the thread. -/
def Host.Lone (site : Site) (x : Thread) (h : Host) : Prop := h.calls.countP (Call.on site x) ≤ 1

/-- A step after which still no two calls are under way on the thread. -/
def LoneStep (srv : Server) (b : Bindings) (site : Site) (x : Thread) (h : Host) (a : HostAction)
    (h' : Host) : Prop :=
  HostStep srv b site h a h' ∧ h'.Lone site x

/-- What is written down about a task. -/
inductive TaskEntry
  | superstep (e : StepLog)
  | decision (text : String)

def HttpAction.entry : HttpAction → TaskEntry
  | .executed _ e => .superstep e
  | .resumed decision => .decision decision

def CallEvent.entry : CallEvent → Option TaskEntry
  | .executed e => some (.superstep e)
  | .wrote decision => some (.decision decision)
  | _ => none

/-- What a step of the server writes down about the task of a thread. -/
def HostAction.entry (site : Site) (x : Thread) : HostAction → Option TaskEntry
  | .call tenantId taskId e =>
      if site.database tenantId = x.database ∧ taskId = x.taskId then e.entry else none
  | _ => none

/-- Where the history of a thread begins: at its checkpoint, or where it had none with the first
checkpoint of a task. -/
def Begins (srv : Server) (taskId : String) (cell : Option Config) (r : TaskRun) : Prop :=
  r.config = cell.getD .absent ∨
    cell = none ∧ ∃ graph g req, srv.taskServiceFor graph = .ok g ∧
      r = { graph := g, config := g.start taskId req }

/-- Where a call stands in the history of the task it works on. -/
def Call.InStep (srv : Server) (r : TaskRun) (cell : Option Config) (c : Call) : Prop :=
  match c.phase with
  | .accepted => True
  | .compiled g => srv.taskServiceFor c.graph = .ok g
  | .updating g config =>
      ∀ d, c.kind = .resume d → srv.resumeTask r.config d = .ok { graph := g, config := config }
  | .updated g => r.graph = g
  | .executing g config => r = { graph := g, config := config } ∧ cell = some config

/-- A thread whose checkpoint is the end of a history, with every call on it in step. -/
structure Host.Tracks (srv : Server) (b : Bindings) (site : Site) (x : Thread)
    (cell₀ : Option Config) (log : List TaskEntry) (h : Host) : Prop where
  lone : h.Lone site x
  graph : ∀ c ∈ h.calls, ∀ d, c.kind = .resume d → c.graph = none
  history : ∃ r₀ acts r, Begins srv x.taskId cell₀ r₀ ∧ Run (HttpStep srv b) r₀ acts r ∧
    acts.map HttpAction.entry = log ∧ r.config = (h.cell x).getD .absent ∧
    (h.cell x = none → cell₀ = none ∧ log = []) ∧
    ∀ c ∈ h.calls, c.on site x = true → c.InStep srv r (h.cell x)

section Tracks

variable {srv : Server} {b : Bindings} {site : Site} {x : Thread} {cell₀ : Option Config}
  {log : List TaskEntry} {h h' : Host} {r : TaskRun} {cell cell' : Option Config}

/-- A call that has not read anything is in step with any history. -/
theorem Call.New.inStep {c : Call} (hnew : c.New srv) : c.InStep srv r cell := by
  unfold Call.InStep
  rcases hnew.phase with hphase | ⟨g, hphase, hg⟩
  · rw [hphase]
    trivial
  · rw [hphase]
    exact hg

/-- A request leaves the thread alone. -/
theorem Host.Tracks.accepted {req : HostRequest} {reply : HostReply}
    (htracks : h.Tracks srv b site x cell₀ log) (hlone : h'.Lone site x)
    (hok : h.handle srv b site req = .ok (reply, h')) : h'.Tracks srv b site x cell₀ log := by
  obtain ⟨sessions, added, rfl, -, hadded⟩ := Host.frame hok
  obtain ⟨-, hgraph, r₀, acts, r, hbegins, hrun, hlog, hconfig, hempty, hcalls⟩ := htracks
  refine ⟨hlone, ?_, r₀, acts, r, hbegins, hrun, hlog, hconfig, hempty, ?_⟩
  · intro c hc
    rcases List.mem_append.mp hc with hc | hc
    · exact hgraph c hc
    · exact (hadded c hc).2.graph
  · intro c hc hon
    rcases List.mem_append.mp hc with hc | hc
    · exact hcalls c hc hon
    · exact (hadded c hc).2.inStep

/-- The other calls are not on the thread. -/
theorem Host.Lone.others {before after : List Call} {c : Call} (hlone : h.Lone site x)
    (hcalls : h.calls = before ++ c :: after) (hon : c.on site x = true) :
    ∀ c' ∈ before ++ after, c'.on site x = false := by
  rw [Host.Lone, hcalls, List.countP_append, List.countP_cons_of_pos hon] at hlone
  have hzero : (before ++ after).countP (Call.on site x) = 0 := by
    rw [List.countP_append]
    omega
  intro c' hc'
  simpa using List.countP_eq_zero.mp hzero c' hc'

/-- What a call on the thread does to it, the call having been in step. -/
theorem Call.Step.inStep {c : Call} {next : Option Call} {e : CallEvent}
    {r₀ : TaskRun} {acts : List HttpAction} (hstep : Call.Step srv b c cell e next cell')
    (hin : c.InStep srv r cell) (hgraph : ∀ d, c.kind = .resume d → c.graph = none)
    (htask : c.taskId = x.taskId) (hbegins : Begins srv x.taskId cell₀ r₀)
    (hrun : Run (HttpStep srv b) r₀ acts r) (hconfig : r.config = cell.getD .absent)
    (hempty : cell = none → cell₀ = none ∧ acts = []) :
    ∃ r₀' acts' r', Begins srv x.taskId cell₀ r₀' ∧ Run (HttpStep srv b) r₀' acts' r' ∧
      acts'.map HttpAction.entry = acts.map HttpAction.entry ++ e.entry.toList ∧
      r'.config = cell'.getD .absent ∧ (cell' = none → cell₀ = none ∧ acts' = []) ∧
      ∀ c', next = some c' → c'.InStep srv r' cell' := by
  unfold Call.InStep at hin
  cases hstep with
  | @compile _ g hphase hg =>
      refine ⟨r₀, acts, r, hbegins, hrun, (List.append_nil _).symm, hconfig, hempty, ?_⟩
      rintro c' ⟨⟩
      exact hg
  | @start g req hphase hkind =>
      rw [hphase] at hin
      -- nothing was on the thread, so the history begins here
      obtain ⟨hfresh, rfl⟩ := hempty rfl
      let created : TaskRun := { graph := g, config := g.start c.taskId req }
      have hcreated : Begins srv x.taskId cell₀ created :=
        .inr ⟨hfresh, c.graph, g, req, hin, by rw [← htask]⟩
      refine ⟨created, [], created, hcreated, .refl _, rfl, rfl,
        fun h => absurd h (Option.some_ne_none _), ?_⟩
      rintro c' ⟨⟩
      exact ⟨rfl, rfl⟩
  | @read _ g d config hphase hkind hresume =>
      rw [hphase] at hin
      refine ⟨r₀, acts, r, hbegins, hrun, (List.append_nil _).symm, hconfig, hempty, ?_⟩
      rintro c' ⟨⟩
      intro d' hd'
      cases hkind.symm.trans hd'
      -- what was read is what a resume of the latest checkpoint reads
      rw [hgraph d hkind] at hin
      rw [Server.resumeTask, Fallible.ok_bind hin, hconfig, hresume]
  | @write _ g d config hphase hkind =>
      rw [hphase] at hin
      let resumed : TaskRun := { graph := g, config := config }
      refine ⟨r₀, acts ++ [.resumed d], resumed, hbegins, hrun.snoc (.resume (hin d hkind)),
        List.map_append, rfl, fun h => absurd h (Option.some_ne_none _), ?_⟩
      rintro c' ⟨⟩
      rfl
  | @load g config hphase =>
      rw [hphase] at hin
      refine ⟨r₀, acts, r, hbegins, hrun, (List.append_nil _).symm, hconfig, hempty, ?_⟩
      rintro c' ⟨⟩
      refine ⟨?_, rfl⟩
      subst hin
      exact congrArg (TaskRun.mk r.graph) hconfig
  | @superstep _ g config config' w log hphase hexec =>
      rw [hphase] at hin
      obtain ⟨rfl, -⟩ := hin
      refine ⟨r₀, acts ++ [.executed g log], _, hbegins, hrun.snoc (.superstep hexec),
        List.map_append, rfl, fun h => absurd h (Option.some_ne_none _), ?_⟩
      rintro c' ⟨⟩
      exact ⟨rfl, rfl⟩
  | return_ | end_ =>
      exact ⟨r₀, acts, r, hbegins, hrun, (List.append_nil _).symm, hconfig, hempty,
        fun _ h => absurd h.symm (Option.some_ne_none _)⟩

theorem Call.on_iff {c : Call} :
    c.on site x = true ↔ site.database c.tenantId = x.database ∧ c.taskId = x.taskId := by
  simp [Call.on]

section Call

variable {before after : List Call} {c : Call} {next : Option Call} {e : CallEvent}

/-- The calls after a call has gone on: the others, and the one that goes on. -/
theorem Host.mem_of_goes_on (hcalls : h.calls = before ++ c :: after) {c' : Call}
    (hc' : c' ∈ before ++ (next.toList ++ after)) :
    next = some c' ∨ c' ∈ before ++ after ∧ c' ∈ h.calls := by
  rw [hcalls]
  simp only [List.mem_append, List.mem_cons, Option.mem_toList] at hc' ⊢
  rcases hc' with hc' | hc' | hc'
  · exact .inr ⟨.inl hc', .inl hc'⟩
  · exact .inl hc'
  · exact .inr ⟨.inr hc', .inr (.inr hc')⟩

/-- A resume stays one without a mode. -/
theorem Host.graph_of_goes_on (hcalls : h.calls = before ++ c :: after)
    (hgraph : ∀ c ∈ h.calls, ∀ d, c.kind = .resume d → c.graph = none)
    (hcall : Call.Step srv b c cell e next cell') :
    ∀ c' ∈ before ++ (next.toList ++ after), ∀ d, c'.kind = .resume d → c'.graph = none := by
  intro c' hc'
  rcases Host.mem_of_goes_on hcalls hc' with rfl | ⟨-, hc'⟩
  · obtain ⟨-, -, hkind, hsame⟩ := hcall.same
    rw [hkind, hsame]
    exact hgraph c (by simp [hcalls])
  · exact hgraph c' hc'

/-- The call on the thread goes on: so does the history. -/
theorem Host.Tracks.call_on (htracks : h.Tracks srv b site x cell₀ log)
    (hcalls : h.calls = before ++ c :: after) (hon : c.on site x = true)
    (hcall : Call.Step srv b c (h.cell x) e next cell)
    (hlone : h'.Lone site x) (hcalls' : h'.calls = before ++ (next.toList ++ after))
    (hcell' : h'.cell x = cell) : h'.Tracks srv b site x cell₀ (log ++ e.entry.toList) := by
  obtain ⟨hbefore, hgraph, r₀, acts, r, hbegins, hrun, rfl, hconfig, hempty, hin⟩ := htracks
  have hc : c ∈ h.calls := by simp [hcalls]
  obtain ⟨r₀', acts', r', hbegins', hrun', hacts, hconfig', hempty', hnext⟩ :=
    hcall.inStep (hin c hc hon) (hgraph c hc) (Call.on_iff.mp hon).2 hbegins hrun hconfig
      (fun hnone => (hempty hnone).imp_right List.map_eq_nil_iff.mp)
  refine ⟨hlone, ?_, r₀', acts', r', hbegins', hrun', hacts, ?_, ?_, ?_⟩
  · rw [hcalls']
    exact Host.graph_of_goes_on hcalls hgraph hcall
  · rw [hcell', hconfig']
  · rw [hcell', ← hacts]
    exact fun hnone => (hempty' hnone).imp_right fun hnil => by rw [hnil, List.map_nil]
  · rw [hcalls', hcell']
    intro c' hc' hon'
    rcases Host.mem_of_goes_on hcalls hc' with hc' | ⟨hc', -⟩
    · exact hnext c' hc'
    · rw [hbefore.others hcalls hon c' hc'] at hon'
      cases hon'

/-- A call on another thread goes on. -/
theorem Host.Tracks.call_off (htracks : h.Tracks srv b site x cell₀ log)
    (hcalls : h.calls = before ++ c :: after) (hoff : c.on site x = false)
    (hcall : Call.Step srv b c cell e next cell') (hlone : h'.Lone site x)
    (hcalls' : h'.calls = before ++ (next.toList ++ after)) (hsame : h'.cell x = h.cell x) :
    h'.Tracks srv b site x cell₀ log := by
  obtain ⟨-, hgraph, r₀, acts, r, hbegins, hrun, hlog, hconfig, hempty, hin⟩ := htracks
  refine ⟨hlone, ?_, r₀, acts, r, hbegins, hrun, hlog, ?_, ?_, ?_⟩
  · rw [hcalls']
    exact Host.graph_of_goes_on hcalls hgraph hcall
  · rw [hsame, hconfig]
  · rw [hsame]
    exact hempty
  · rw [hcalls', hsame]
    intro c' hc' hon'
    rcases Host.mem_of_goes_on hcalls hc' with rfl | ⟨-, hc'⟩
    · obtain ⟨htenant, htask, -, -⟩ := hcall.same
      rw [Call.on, htenant, htask, ← Call.on, hoff] at hon'
      cases hon'
    · exact hin c' hc' hon'

end Call

/-- A step of the server goes on with the history of the thread, or leaves it alone. -/
theorem Host.Tracks.step {a : HostAction} (htracks : h.Tracks srv b site x cell₀ log)
    (hstep : LoneStep srv b site x h a h') :
    h'.Tracks srv b site x cell₀ (log ++ (a.entry site x).toList) := by
  obtain ⟨hstep, hlone⟩ := hstep
  cases hstep with
  | accepted hok =>
      show h'.Tracks srv b site x cell₀ (log ++ [])
      rw [List.append_nil]
      exact htracks.accepted hlone hok
  | refused | unavailable =>
      show h.Tracks srv b site x cell₀ (log ++ [])
      rw [List.append_nil]
      exact htracks
  | call hcalls hcall =>
      rename_i before after c next e cell
      -- A call steps on the thread of its own task in its own database.
      by_cases hon : site.database c.tenantId = x.database ∧ c.taskId = x.taskId
      · have hentry : (HostAction.call c.tenantId c.taskId e).entry site x = e.entry := if_pos hon
        rw [hentry]
        rw [hon.1, hon.2] at hcall
        exact htracks.call_on hcalls (Call.on_iff.mpr hon) hcall hlone rfl
          (if_pos ⟨hon.1.symm, hon.2.symm⟩)
      · have hentry : (HostAction.call c.tenantId c.taskId e).entry site x = none := if_neg hon
        rw [hentry, Option.toList_none, List.append_nil]
        refine htracks.call_off hcalls ?_ hcall hlone rfl ?_
        · exact Bool.eq_false_iff.mpr (fun h => hon (Call.on_iff.mp h))
        · exact if_neg (fun h => hon ⟨h.1.symm, h.2.symm⟩)

end Tracks

/-- **The history of a task among all others.** Take any run of a server, with any tenants, tasks,
requests and failures, in which no two calls are ever under way on one thread. Whatever the other
calls do in between, the steps on that thread are a history of the single task over HTTP, with the
same supersteps and decisions in the same order, and the latest checkpoint is where it ends. -/
theorem task_history_among_others {srv : Server} {b : Bindings} {site : Site} {x : Thread}
    {h h' : Host} {l : List HostAction} (hrun : Run (LoneStep srv b site x) h l h')
    (hidle : h.calls = []) :
    ∃ r₀ acts r, Begins srv x.taskId (h.cell x) r₀ ∧ Run (HttpStep srv b) r₀ acts r ∧
      acts.map HttpAction.entry = l.filterMap (HostAction.entry site x) ∧
      r.config = (h'.cell x).getD .absent := by
  have hstart : h.Tracks srv b site x (h.cell x) [] := by
    let resting : TaskRun := { graph := ⟨.planner, [], []⟩, config := (h.cell x).getD .absent }
    exact ⟨by simp [Host.Lone, hidle], by simp [hidle], resting, [], resting, .inl rfl, .refl _,
      rfl, rfl, fun hnone => ⟨hnone, rfl⟩, by simp [hidle]⟩
  have hall := hrun.log_invariant
    (P := fun l h' => h'.Tracks srv b site x (h.cell x) (l.filterMap (HostAction.entry site x)))
    (fun l h a h' htracks hstep => by
      rw [List.filterMap_append]
      cases hentry : a.entry site x with
      | none => simpa [hentry] using htracks.step hstep
      | some entry => simpa [hentry] using htracks.step hstep) hstart
  obtain ⟨-, -, r₀, acts, r, hbegins, hhistory, hlog, hconfig, -, -⟩ := hall
  exact ⟨r₀, acts, r, hbegins, hhistory, hlog, hconfig⟩

/-! ## A task of `acme` -/

/-- The thread of a task of `acme`. -/
def acmeThread : Thread := { database := srvSite.database "acme", taskId := "task-1" }

/-- A step that leaves at most one call for the task of `acme` leaves at most one on its thread. -/
theorem TidyStep.lone {h h' : Host} {a : HostAction} (hstep : TidyStep h a h') :
    LoneStep {} {} srvSite acmeThread h a h' := by
  refine ⟨hstep.1, Nat.le_trans (List.countP_mono_left fun c _ hon => ?_) hstep.2⟩
  exact beq_iff_eq.mpr (Call.on_iff.mp hon).2

/-- While `globex` has a task planned, that of `acme` is planned, resumed and carried on. -/
theorem task_history_among_others_started :
    ∃ turn h r₀ acts r,
      Run (LoneStep {} {} srvSite acmeThread) {} (plannedActions ++ resumedActions turn) h ∧
      Begins {} "task-1" none r₀ ∧ Run (HttpStep {} {}) r₀ acts r ∧
      acts.map HttpAction.entry =
        [.superstep (planLog "task-1" "acme"), .decision "go on", .superstep turn] ∧
      turn.node = .developer ∧ h.cell acmeThread = some r.config := by
  obtain ⟨turn, c, hresumed, hnode⟩ := exists_resumed_run
  have hrun := (planned_run.trans hresumed).mono fun _ _ _ hstep => hstep.lone
  obtain ⟨r₀, acts, r, hbegins, hhistory, hlog, hconfig⟩ := task_history_among_others hrun rfl
  have hcell : (twoTenants twoRows (some c) (some (planned "task-2" "globex"))
      [acmeResume (.executing defaultGraph c)]).cell acmeThread = some c := twoTenants_acme
  have hentries : (plannedActions ++ resumedActions turn).filterMap
      (HostAction.entry srvSite acmeThread) =
        [.superstep (planLog "task-1" "acme"), .decision "go on", .superstep turn] := by
    simp [plannedActions, resumedActions, List.filterMap_cons, HostAction.entry, acmeThread,
      CallEvent.entry]
  rw [hentries] at hlog
  rw [hcell] at hconfig
  exact ⟨turn, _, r₀, acts, r, hrun, hbegins, hhistory, hlog, hnode, by rw [hcell, hconfig]; rfl⟩

end AgentRoom
