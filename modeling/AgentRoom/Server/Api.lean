import AgentRoom.Server.Runtime
import AgentRoom.Simulation

set_option autoImplicit false

/-! # Tasks over HTTP

`POST /tasks` and `POST /tasks/stream` compile the graph of the requested mode and run the
task on it; `POST /tasks/{id}/resume` compiles a graph again, over the same checkpoint. The
graph is not part of the checkpoint, so a task is a checkpoint together with the graph of
the service that executes it now.
-/

namespace AgentRoom

/-- A task on the server. -/
structure TaskRun where
  graph : Graph
  config : Config

/-- `USER_SELECTABLE_GRAPHS`. -/
def userSelectableGraphs : List String := ["full_react", "goal"]

/-- `_validate_graph`: no override, or an exposed mode. -/
def validateGraph (req : TaskRequest) : Except ServerError Unit :=
  match req.graph with
  | none => .ok ()
  | some graph => if graph ∈ userSelectableGraphs then .ok () else .error .graphNotSelectable

/-- `_check_input_guardrail`. -/
def checkInputGuardrail (b : Bindings) (req : TaskRequest) : Except ServerError Unit :=
  match b.guardrail.check (req.title ++ "\n" ++ req.description) .input with
  | .error finding => .error (.guardrail finding)
  | .ok _ => .ok ()

namespace Server

/-- `create_task` and `stream_task`, up to the point where the graph is executed. -/
def createTask (srv : Server) (b : Bindings) (taskId : String) (req : TaskRequest) :
    Except ServerError TaskRun := do
  checkInputGuardrail b req
  validateGraph req
  let g ← srv.taskServiceFor req.graph
  .ok { graph := g, config := g.start taskId req }

/-- `resume_task`, up to the point where the graph is executed: the service is compiled
without a `graph`, and `at_node` has its default. -/
def resumeTask (srv : Server) (c : Config) (decision : String) : Except ServerError TaskRun := do
  let g ← srv.taskServiceFor none
  match g.beginResume c (.str decision) .reviewer with
  | .error e => .error (.node e)
  | .ok c' => .ok { graph := g, config := c' }

end Server

/-! ## Histories over HTTP -/

/-- One step of a task's history over HTTP. -/
inductive HttpAction
  | executed (graph : Graph) (log : StepLog)
  | resumed (decision : String)

/-- A superstep of the current service's graph, or a `POST /tasks/{id}/resume`. How many supersteps
one call may make is left to `LimitedHttpStep`. -/
inductive HttpStep (srv : Server) (b : Bindings) : TaskRun → HttpAction → TaskRun → Prop
  | superstep {w : World} {r : TaskRun} {c : Config} {e : StepLog} :
      r.graph.superstep b w r.config = .ok (e, c) →
      HttpStep srv b r (.executed r.graph e) { r with config := c }
  | resume {r r' : TaskRun} {d : String} :
      srv.resumeTask r.config d = .ok r' → HttpStep srv b r (.resumed d) r'

/-- A superstep, the kind of step that `GRAPH_RECURSION_LIMIT` counts. -/
def HttpAction.isSuperstep : HttpAction → Bool
  | .executed _ _ => true
  | .resumed _ => false

/-- A step over HTTP that keeps to the recursion limit of its call. -/
def LimitedHttpStep (srv : Server) (b : Bindings) :
    TaskRun × ℕ → HttpAction → TaskRun × ℕ → Prop :=
  Transition.Within (HttpStep srv b) HttpAction.isSuperstep graphRecursionLimit

/-- The supersteps of a history. -/
def executedOver (h : List HttpAction) : List StepLog :=
  h.filterMap (fun a => match a with
    | .executed _ e => some e
    | .resumed _ => none)

@[simp] theorem executedOver_nil : executedOver [] = [] := rfl

@[simp] theorem executedOver_append (h h' : List HttpAction) :
    executedOver (h ++ h') = executedOver h ++ executedOver h' := List.filterMap_append

@[simp] theorem executedOver_executed (g : Graph) (e : StepLog) :
    executedOver [.executed g e] = [e] := rfl

@[simp] theorem executedOver_resumed (d : String) : executedOver [.resumed d] = [] := rfl

@[simp] theorem executedOver_map (g : Graph) (l : List StepLog) :
    executedOver (l.map (.executed g)) = l := by
  induction l with
  | nil => rfl
  | cons e l ih => exact congrArg (List.cons e) ih

/-- A run of one service's graph is a history over HTTP. -/
theorem HttpStep.of_run {srv : Server} {b : Bindings} {g : Graph} {c c' : Config}
    {l : List StepLog} (h : Transition.Run (Superstep g b) c l c') :
    Transition.Run (HttpStep srv b) { graph := g, config := c } (l.map (.executed g))
      { graph := g, config := c' } := by
  induction h with
  | refl => exact .refl _
  | snoc _ hstep ih =>
      obtain ⟨w, hs⟩ := hstep
      rw [List.map_append]
      exact ih.snoc (.superstep hs)

namespace Server

variable {srv : Server} {b : Bindings} {taskId : String} {req : TaskRequest} {r : TaskRun}

/-- What an accepted creation starts. -/
theorem createTask_ok (h : srv.createTask b taskId req = .ok r) :
    (req.graph = none ∨ req.graph = some "full_react" ∨ req.graph = some "goal") ∧
      srv.taskServiceFor req.graph = .ok r.graph ∧ r.config = r.graph.start taskId req := by
  obtain ⟨-, -, h⟩ := Fallible.bind_eq_ok h
  obtain ⟨_, hvalid, h⟩ := Fallible.bind_eq_ok h
  obtain ⟨g, hg, h⟩ := Fallible.bind_eq_ok h
  cases h
  refine ⟨?_, hg, rfl⟩
  unfold validateGraph at hvalid
  split at hvalid
  · exact .inl ‹_›
  · rename_i graph hgraph
    split at hvalid
    · rename_i hmem
      simp only [userSelectableGraphs, List.mem_cons, List.not_mem_nil, or_false] at hmem
      rw [hgraph]
      rcases hmem with rfl | rfl <;> simp
    · cases hvalid

/-- What a resume starts: the default graph, at its reviewer. -/
theorem resumeTask_ok {c : Config} {d : String} (h : srv.resumeTask c d = .ok r) :
    srv.taskServiceFor none = .ok r.graph ∧
      r.graph.beginResume c (.str d) .reviewer = .ok r.config := by
  obtain ⟨g, hg, h⟩ := Fallible.bind_eq_ok h
  cases hb : g.beginResume c (.str d) .reviewer with
  | error e =>
      rw [hb] at h
      cases h
  | ok c' =>
      rw [hb] at h
      cases h
      exact ⟨hg, hb⟩

end Server

end AgentRoom
