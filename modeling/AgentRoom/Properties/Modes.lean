import AgentRoom.Server.Api
import AgentRoom.Properties.GoalDelivery

set_option autoImplicit false

/-! # Does a task keep its mode?

Creation compiles the graph of the requested mode, every resume the graph of the server's
default preset. A task keeps its mode exactly when these are the same preset, or when the
default preset has no reviewer to resume at.
-/

namespace AgentRoom

open Transition

/-- Every superstep of the history belongs to the graph of the requested mode; in goal mode
with a verify command, the oracle has passed before every delivery. -/
structure KeepsMode (srv : Server) (req : TaskRequest) (h : List HttpAction) : Prop where
  topology : ∀ g e, .executed g e ∈ h → srv.taskServiceFor req.graph = .ok g
  oracle : req.graph = some "goal" → Py.truthy req.verifyCommand = true →
    ∀ l₁ e l₂, executedOver h = l₁ ++ e :: l₂ → e.node = .delivery →
      ∃ v ∈ l₁, v.PassedVerification

namespace Server

variable {srv : Server} {b : Bindings}

/-- The history over HTTP that stays on one graph is a history of that graph. -/
theorem history_of_same_graph {r r' : TaskRun} {h : List HttpAction}
    (hsame : ∀ c d r₁, srv.resumeTask c d = .ok r₁ → r₁.graph = r.graph)
    (hrun : Run (HttpStep srv b) r h r') :
    r'.graph = r.graph ∧ (∀ g e, .executed g e ∈ h → g = r.graph) ∧
      ∃ h', Run (ServiceStep r.graph b) r.config h' r'.config ∧ executed h' = executedOver h := by
  induction hrun with
  | refl => exact ⟨rfl, by simp, [], .refl _, rfl⟩
  | @snoc t u l o hprev hstep ih =>
      obtain ⟨hg, hall, h', hrun', hexec⟩ := ih
      cases hstep with
      | superstep hs =>
          rw [hg] at hs
          refine ⟨hg, ?_, h' ++ [.superstep _], hrun'.snoc (.superstep hs), by simp [hexec]⟩
          intro g e hmem
          rcases List.mem_append.mp hmem with hmem | hmem
          · exact hall g e hmem
          · cases List.mem_singleton.mp hmem
            exact hg
      -- A resume that would go elsewhere is excluded by `hsame`.
      | @resume _ _ d hs =>
          have hg' := hsame _ _ _ hs
          obtain ⟨-, hb⟩ := resumeTask_ok hs
          rw [hg'] at hb
          refine ⟨hg', ?_, h' ++ [.resumed (.str d) .reviewer],
            hrun'.snoc (.resume (by simp) hb), by simp [hexec]⟩
          intro g e hmem
          rcases List.mem_append.mp hmem with hmem | hmem
          · exact hall g e hmem
          · cases List.mem_singleton.mp hmem

/-- The graph depends on the name of its preset only. -/
theorem taskServiceFor_congr {g g' : Option String} (h : srv.presetName g = srv.presetName g') :
    srv.taskServiceFor g = srv.taskServiceFor g' := by
  simp only [taskServiceFor, buildServerSpec, h]

theorem presetName_default (s : String) (h : s = srv.settings.graphPreset) :
    srv.presetName (some s) = srv.presetName none := by
  subst h
  unfold presetName
  split <;> rfl

/-- Where every resume compiles the graph of the creation, a task keeps its mode. -/
theorem keepsMode_of_same {taskId : String} {req : TaskRequest} {r₀ r : TaskRun}
    {h : List HttpAction} (hcreate : srv.createTask b taskId req = .ok r₀)
    (hsame : ∀ c d r₁, srv.resumeTask c d = .ok r₁ → r₁.graph = r₀.graph)
    (hrun : Run (HttpStep srv b) r₀ h r) : KeepsMode srv req h := by
  obtain ⟨-, hg, hstart⟩ := createTask_ok hcreate
  obtain ⟨-, hall, h', hrun', hexec⟩ := history_of_same_graph hsame hrun
  refine ⟨fun g e he => hall g e he ▸ hg, fun hgoal hcmd l₁ e l₂ heq hdel => ?_⟩
  obtain ⟨p, hp, hcompiled⟩ := taskServiceFor_ok hg
  rw [hgoal] at hp
  cases hp
  rw [hstart, hcompiled] at hrun'
  have hverified := (goal_history_verified (.start hcmd)
    (by simp [Graph.start, Preset.compiled, Preset.delivers])
    hrun').2.1
  rw [hexec] at hverified
  exact hverified.exists_mem heq hdel

/-- The default preset `solo` has no reviewer, so nothing is ever resumed. -/
theorem resumeTask_solo (hsolo : srv.settings.graphPreset = "solo") (c : Config) (d : String)
    (r : TaskRun) : srv.resumeTask c d ≠ .ok r := by
  intro h
  obtain ⟨hg, hb⟩ := resumeTask_ok h
  obtain ⟨p, hp, hcompiled⟩ := taskServiceFor_ok hg
  have hp' : loadPreset srv.settings.graphPreset = some p := hp
  rw [hsolo] at hp'
  cases hp'
  rw [hcompiled] at hb
  exact (Preset.resumeReviewer_control hb).1 rfl

/-- A resume on another preset than the task was created for goes on at its developer. -/
theorem exists_resumed_elsewhere {graph : Option String} {g₀ G : Graph} {pg p₀ : Preset}
    (hstart : srv.taskServiceFor none = .ok g₀) (hserves : srv.taskServiceFor graph = .ok G)
    (hsel : graph = some "full_react" ∨ graph = some "goal") (hpg : srv.preset? graph = some pg)
    (hp₀ : srv.preset? none = some p₀) (hne : p₀ ≠ pg) (hsolo : p₀ ≠ .solo) :
    ∃ req r₀ h r, req.graph = graph ∧ srv.createTask {} "task" req = .ok r₀ ∧
      Run (HttpStep srv {}) r₀ h r ∧ ¬ KeepsMode srv req h := by
  obtain ⟨q, hq, hG⟩ := taskServiceFor_ok hserves
  obtain ⟨q₀, hq₀, hg₀⟩ := taskServiceFor_ok hstart
  cases hpg.symm.trans hq
  cases hp₀.symm.trans hq₀
  let req : TaskRequest := { title := "t", description := "d", graph := graph }
  have hcreate : srv.createTask {} "task" req = .ok { graph := G, config := G.start "task" req } := by
    have hvalid : validateGraph req = .ok () := by
      rcases hsel with rfl | rfl <;> rfl
    have hcheck : checkInputGuardrail {} req = .ok () := by
      simp only [checkInputGuardrail, Guardrail.check_off]
    have hgraph : srv.taskServiceFor req.graph = .ok G := hserves
    rw [createTask, Fallible.ok_bind hcheck, Fallible.ok_bind hvalid, Fallible.ok_bind hgraph]
  -- the default graph accepts the resume and calls its own developer
  obtain ⟨c₁, e, c', hb, hstep, -⟩ := Preset.exists_resumed_turn srv.devTools srv.gated hsolo
    (G.start "task" req) "go on" rfl
  have hresume : srv.resumeTask (G.start "task" req) "go on" = .ok ⟨g₀, c₁⟩ := by
    rw [resumeTask, Fallible.ok_bind hstart, hg₀, hb]
  rw [← hg₀] at hstep
  refine ⟨req, _, _, _, rfl, hcreate, (Run.single (.resume hresume)).snoc (.superstep hstep), ?_⟩
  intro hkeeps
  have hserved : srv.taskServiceFor graph = .ok g₀ := hkeeps.topology g₀ e (by simp)
  rw [hserves, Except.ok.injEq, hG, hg₀] at hserved
  have hu : pg.usesTools = true := by
    rcases hsel with rfl | rfl <;> cases hpg <;> rfl
  exact hne (Preset.compiled_inj hu hserved).symm

end Server

/-- **When a task keeps its mode**: when no mode was requested or the requested mode is the
server's default preset, or when that preset cannot be resumed. -/
theorem task_keeps_mode_iff {srv : Server} {graph : Option String} {g₀ G : Graph}
    (hstart : srv.taskServiceFor none = .ok g₀) (hserves : srv.taskServiceFor graph = .ok G)
    (hsel : graph = none ∨ graph = some "full_react" ∨ graph = some "goal") :
    (∀ (b : Bindings) (taskId : String) (req : TaskRequest) (r₀ : TaskRun) (h : List HttpAction)
      (r : TaskRun), req.graph = graph → srv.createTask b taskId req = .ok r₀ →
        Run (HttpStep srv b) r₀ h r → KeepsMode srv req h) ↔
      graph = none ∨ graph = some srv.settings.graphPreset ∨
        srv.settings.graphPreset = "solo" := by
  constructor
  · intro hall
    by_contra hcond
    simp only [not_or] at hcond
    obtain ⟨hsome, hother, hsolo⟩ := hcond
    obtain ⟨pg, hpg, -⟩ := Server.taskServiceFor_ok hserves
    obtain ⟨p₀, hp₀, -⟩ := Server.taskServiceFor_ok hstart
    have hname₀ : p₀.name = srv.settings.graphPreset := name_of_loadPreset hp₀
    obtain ⟨req, r₀, h, r, hreq, hcreate, hrun, hlost⟩ := Server.exists_resumed_elsewhere hstart
      hserves (hsel.resolve_left hsome) hpg hp₀
      (by
        rintro rfl
        refine hother ?_
        rcases hsel.resolve_left hsome with rfl | rfl <;> cases hpg <;> rw [← hname₀] <;> rfl)
      (by rintro rfl; exact hsolo hname₀.symm)
    exact hlost (hall {} "task" req r₀ h r hreq hcreate hrun)
  · intro hcond b taskId req r₀ h r hreq hcreate hrun
    refine Server.keepsMode_of_same hcreate ?_ hrun
    intro c d r₁ hres
    obtain ⟨-, hg, -⟩ := Server.createTask_ok hcreate
    obtain ⟨hg₁, -⟩ := Server.resumeTask_ok hres
    have hsame : graph = none ∨ graph = some srv.settings.graphPreset →
        srv.taskServiceFor req.graph = srv.taskServiceFor none := by
      rintro (hnone | hdefault)
      · rw [hreq, hnone]
      · rw [hreq, hdefault]
        exact Server.taskServiceFor_congr (Server.presetName_default _ rfl)
    rcases hcond with hcond | hcond | hsolo
    · rw [hsame (.inl hcond), hg₁] at hg
      exact Except.ok.inj hg
    · rw [hsame (.inr hcond), hg₁] at hg
      exact Except.ok.inj hg
    · exact absurd hres (Server.resumeTask_solo hsolo c d r₁)

/-- On a server whose default is goal mode, goal tasks keep it. -/
theorem task_keeps_mode_default :
    let srv : Server := { settings := { graphPreset := "goal" } }
    ∀ (b : Bindings) (taskId : String) (req : TaskRequest) (r₀ : TaskRun) (h : List HttpAction)
      (r : TaskRun), req.graph = some "goal" → srv.createTask b taskId req = .ok r₀ →
        Run (HttpStep srv b) r₀ h r → KeepsMode srv req h :=
  (task_keeps_mode_iff rfl rfl (.inr (.inr rfl))).mpr (.inr (.inl rfl))

/-! ## A goal task that is delivered unverified -/

/-- A play of one graph, as a history over HTTP. -/
theorem exists_http_run {srv : Server} {p : Preset} (tools : List Tool) (hp : p ≠ .twoCallReview)
    {xs : List Choice} {c : Config} {ns : List NodeName} {k : Control}
    (hplay : c.control.play p (xs.map .node) = some (ns, k)) :
    ∃ (l : List StepLog) (c' : Config), Run (HttpStep srv {}) ⟨p.compiled tools false, c⟩
        (l.map (.executed (p.compiled tools false))) ⟨p.compiled tools false, c'⟩ ∧
      c'.control = k ∧ l.map StepLog.node = ns ∧
      ((∀ x ∈ xs, x.passes = false) → ∀ e ∈ l, ¬ e.PassedVerification) := by
  obtain ⟨l, c', hrun, hk, hnodes, hpasses⟩ := Preset.exists_honest_run hp hplay
  have hsteps := hrun.map id (fun _ _ _ _ hs => hs.2)
  rw [List.map_id] at hsteps
  refine ⟨l, c', HttpStep.of_run hsteps, hk, hnodes, fun hfail e he hpass => ?_⟩
  obtain ⟨x, hx, hxp⟩ := hpasses e he hpass.1 hpass.choice_passes
  rw [hfail x hx] at hxp
  cases hxp

/-- The goal of the failing task. -/
def unreachedGoal : TaskRequest :=
  { title := "t", description := "d", verifyCommand := some "make", graph := some "goal" }

/-- Where three failed verifications leave it when the supervisor asks the user. -/
def unreachedControl : Control :=
  { review := some .needUserDecision, revisionRound := 0, maxRevisions := 2, planned := true
    asked := false, delivered := false, hasOracle := true, verification := some false
    verifyRound := 3, maxIterations := 10, stuck := some .askUser, transcript := true
    devRound := 0, next := none }

/-- On the default server, a goal task fails its oracle three times and asks the user; the
resumed run goes through the reviewer and is delivered, with no verification ever passed. -/
theorem goal_task_delivered_unverified :
    ∃ r₀ h r, ({} : Server).createTask {} "task" unreachedGoal = .ok r₀ ∧
      Run (HttpStep {} {}) r₀ h r ∧
      (executedOver h).map StepLog.node =
        [.planner, .developer, .verify, .developer, .verify, .developer, .verify, .supervisor,
          .developer, .reviewer, .delivery] ∧
      (∀ e ∈ executedOver h, ¬ e.PassedVerification) ∧ ¬ KeepsMode {} unreachedGoal h := by
  let tools := ({} : Server).devTools
  have hcreate : ({} : Server).createTask {} "task" unreachedGoal
      = .ok ⟨Preset.goal.compiled tools false,
          (Preset.goal.compiled tools false).start "task" unreachedGoal⟩ := rfl
  have hplay : ((Preset.goal.compiled tools false).start "task" unreachedGoal).control.play .goal
      ([{}, {}, {}, {}, {}, {}, {}, { action := .askUser }].map .node)
        = some ([.planner, .developer, .verify, .developer, .verify, .developer, .verify,
            .supervisor], unreachedControl) := by
    rw [Preset.start_control]
    decide
  obtain ⟨l, c, hrun, hc, hnodes, hfail⟩ := exists_http_run tools (by decide) hplay
  obtain ⟨c₁, hb⟩ := Preset.exists_resumeReviewer tools false (p := .fullReact) (by decide) c
    "try harder"
  have hresume : ({} : Server).resumeTask c "try harder"
      = .ok ⟨Preset.fullReact.compiled tools false, c₁⟩ := by
    have hdefault : ({} : Server).taskServiceFor none
        = .ok (Preset.fullReact.compiled tools false) := rfl
    rw [Server.resumeTask, Fallible.ok_bind hdefault, hb]
  obtain ⟨-, -, -, hc₁⟩ := Preset.resumeReviewer_control hb
  have hplay₁ : (unreachedControl.resumeReviewer .fullReact).play .fullReact
      ([{}, {}, {}].map .node) = some ([.developer, .reviewer, .delivery], _) := rfl
  rw [← hc, ← hc₁] at hplay₁
  obtain ⟨l₁, c₂, hrun₁, -, hnodes₁, hfail₁⟩ := exists_http_run tools (by decide) hplay₁
  have hlog : executedOver (l.map (.executed (Preset.goal.compiled tools false)) ++
      [.resumed "try harder"] ++ l₁.map (.executed (Preset.fullReact.compiled tools false)))
        = l ++ l₁ := by
    simp only [executedOver_append, executedOver_map, executedOver_resumed, List.append_nil]
  have hunverified : ∀ e ∈ l ++ l₁, ¬ e.PassedVerification := by
    intro e he
    rcases List.mem_append.mp he with he | he
    · exact hfail (by decide) e he
    · exact hfail₁ (by decide) e he
  refine ⟨_, _, _, hcreate, (hrun.snoc (.resume hresume)).trans hrun₁, ?_, ?_, ?_⟩
  · rw [hlog, List.map_append, hnodes, hnodes₁]
    rfl
  · rw [hlog]
    exact hunverified
  · intro hkeeps
    -- the last superstep is a delivery
    rcases List.eq_nil_or_concat l₁ with rfl | ⟨l₂, e, rfl⟩
    · cases hnodes₁
    have hdel : e.node = .delivery := by simpa using congrArg List.getLast? hnodes₁
    obtain ⟨v, hv, hpass⟩ := hkeeps.oracle rfl rfl (l ++ l₂) e [] (by rw [hlog]; simp) hdel
    refine hunverified v ?_ hpass
    rw [List.concat_eq_append, ← List.append_assoc]
    exact List.mem_append_left _ hv

end AgentRoom
