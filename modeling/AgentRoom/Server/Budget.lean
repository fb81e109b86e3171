import AgentRoom.Lib.Doubles
import AgentRoom.Lib.Runs

set_option autoImplicit false

/-! # Budgets

A tracker adds up what the calls of one compiled graph used and raises once a ceiling is
exceeded. `POST /tasks`, `POST /tasks/stream` and `POST /tasks/{id}/resume` compile a graph for
each request; the compatibility endpoints execute the graph of the startup. Prices and ceilings
are the rationals that their `float`s denote; a tracker says how it keeps the costs it adds up,
as doubles or exactly.
-/

namespace AgentRoom

open Doubles

/-- The `dimension` of an exceeded ceiling. -/
inductive BudgetDimension
  | maxTokens | maxToolCalls | maxCostUsd
  deriving DecidableEq, Repr

/-- `Budget`. -/
structure Budget where
  maxTokens : Option Int := none
  maxToolCalls : Option Int := none
  maxCostUsd : Option ℚ := none
  pricePer1kInput : Option ℚ := none
  pricePer1kOutput : Option ℚ := none

/-- `Usage`, without the cached tokens. -/
structure Usage where
  promptTokens : Int
  completionTokens : Int
  totalTokens : Int
  deriving DecidableEq, Repr

/-- `BudgetExceededError`. -/
structure BudgetExceededError where
  dimension : BudgetDimension
  limit : ℚ
  actual : ℚ
  deriving DecidableEq

/-- The ceiling of a dimension. -/
def Budget.limit (b : Budget) : BudgetDimension → Option ℚ
  | .maxTokens => b.maxTokens.map (fun n : Int => (n : ℚ))
  | .maxToolCalls => b.maxToolCalls.map (fun n : Int => (n : ℚ))
  | .maxCostUsd => b.maxCostUsd

/-- What a call costs. -/
def Budget.cost (b : Budget) (u : Usage) : ℚ :=
  (match b.pricePer1kInput with
    | some price => u.promptTokens / 1000 * price
    | none => 0) +
  (match b.pricePer1kOutput with
    | some price => u.completionTokens / 1000 * price
    | none => 0)

/-- `cost += tokens / 1000 * price`, where the price is set. -/
def addPriced (a : Arithmetic) (price : Option ℚ) (tokens : Int) (cost : ℚ) : ℚ :=
  match price with
  | some price => a.add cost (a.mul (a.divInt tokens 1000) price)
  | none => cost

/-- What a tracker's cost becomes with a call. -/
def Budget.addCost (b : Budget) (a : Arithmetic) (cost : ℚ) (u : Usage) : ℚ :=
  addPriced a b.pricePer1kOutput u.completionTokens
    (addPriced a b.pricePer1kInput u.promptTokens cost)

/-- Kept exactly, the costs of the calls are added up. -/
theorem Budget.addCost_exact (b : Budget) (cost : ℚ) (u : Usage) :
    b.addCost .exact cost u = cost + b.cost u := by
  unfold addCost addPriced Budget.cost
  cases b.pricePer1kInput <;> cases b.pricePer1kOutput <;> simp [add_assoc]

/-- `round(x, 6)`. -/
def roundTo6 (a : Arithmetic) (x : ℚ) : ℚ := a.round (roundHalfEven (x * 1000000) / 1000000)

/-! ## The tracker -/

structure BudgetTracker where
  budget : Option Budget := none
  totalTokens : Int := 0
  toolCalls : Int := 0
  costUsd : ℚ := 0
  arithmetic : Arithmetic := .double

namespace BudgetTracker

/-- The total of a dimension. -/
def total (t : BudgetTracker) : BudgetDimension → ℚ
  | .maxTokens => t.totalTokens
  | .maxToolCalls => t.toolCalls
  | .maxCostUsd => t.costUsd

/-- What `record` adds up. -/
def add (t : BudgetTracker) (budget : Budget) (usage : Option Usage) : BudgetTracker :=
  match usage with
  | none => t
  | some u =>
      { t with
        totalTokens := t.totalTokens + u.totalTokens
        costUsd := budget.addCost t.arithmetic t.costUsd u }

/-- The check of `max_tokens`. -/
def tokensExceeded (t : BudgetTracker) (budget : Budget) : Option BudgetExceededError :=
  match budget.maxTokens with
  | some limit => if limit < t.totalTokens then some ⟨.maxTokens, limit, t.totalTokens⟩ else none
  | none => none

/-- The check of `max_cost_usd`. -/
def costExceeded (t : BudgetTracker) (budget : Budget) : Option BudgetExceededError :=
  match budget.maxCostUsd with
  | some limit =>
      if limit < t.costUsd then some ⟨.maxCostUsd, limit, roundTo6 t.arithmetic t.costUsd⟩
      else none
  | none => none

/-- The check of `max_tool_calls`. -/
def toolCallsExceeded (t : BudgetTracker) (budget : Budget) : Option BudgetExceededError :=
  match budget.maxToolCalls with
  | some limit => if limit < t.toolCalls then some ⟨.maxToolCalls, limit, t.toolCalls⟩ else none
  | none => none

/-- `record`: the error it raises, and the tracker it leaves behind in either case. -/
def record (t : BudgetTracker) (usage : Option Usage) :
    Option BudgetExceededError × BudgetTracker :=
  match t.budget with
  | none => (none, t)
  | some budget =>
      let t := t.add budget usage
      ((t.tokensExceeded budget).or (t.costExceeded budget), t)

/-- `record_tool_calls`. -/
def recordToolCalls (t : BudgetTracker) (count : Nat) :
    Option BudgetExceededError × BudgetTracker :=
  match t.budget with
  | none => (none, t)
  | some budget =>
      if count = 0 then (none, t)
      else
        let t := { t with toolCalls := t.toolCalls + count }
        (t.toolCallsExceeded budget, t)

/-- What `invoke` does to the tracker after the reply: the error it raises, the tool calls it
recorded, and the tracker. -/
def account (t : BudgetTracker) (usage : Option Usage) (toolCalls : Nat) :
    Option BudgetExceededError × Nat × BudgetTracker :=
  match t.record usage with
  | (some e, t) => (some e, 0, t)
  | (none, t) =>
      if toolCalls = 0 then (none, 0, t)
      else ((t.recordToolCalls toolCalls).1, toolCalls, (t.recordToolCalls toolCalls).2)

section

variable {b : Budget} {t : BudgetTracker}

theorem record_eq (hb : t.budget = some b) (u : Option Usage) :
    t.record u =
      (((t.add b u).tokensExceeded b).or ((t.add b u).costExceeded b), t.add b u) := by
  simp only [record, hb]

theorem recordToolCalls_eq (hb : t.budget = some b) {n : Nat} (h : n ≠ 0) :
    t.recordToolCalls n =
      ({ t with toolCalls := t.toolCalls + n }.toolCallsExceeded b,
        { t with toolCalls := t.toolCalls + n }) := by
  simp only [recordToolCalls, hb, if_neg h]

end

end BudgetTracker

/-! ## What was recorded -/

/-- One call of a task on a compiled graph, as far as it was recorded. -/
structure UsageRecord where
  graph : Nat
  taskId : String
  usage : Option Usage
  toolCalls : Nat
  deriving DecidableEq, Repr

/-- What a call adds to a dimension. -/
def Budget.amount (b : Budget) (r : UsageRecord) : BudgetDimension → ℚ
  | .maxTokens => match r.usage with
      | some u => u.totalTokens
      | none => 0
  | .maxToolCalls => r.toolCalls
  | .maxCostUsd => match r.usage with
      | some u => b.cost u
      | none => 0

/-- What some calls add up to, exactly. -/
def Budget.spent (b : Budget) (dim : BudgetDimension) (log : List UsageRecord) : ℚ :=
  (log.map (fun r => b.amount r dim)).sum

@[simp] theorem Budget.spent_nil (b : Budget) (dim : BudgetDimension) : b.spent dim [] = 0 := rfl

@[simp] theorem Budget.spent_append (b : Budget) (dim : BudgetDimension)
    (log log' : List UsageRecord) :
    b.spent dim (log ++ log') = b.spent dim log + b.spent dim log' := by
  simp [spent]

/-- What a tracker shows after some calls: costs are rounded as they are added up. -/
def Budget.counted (b : Budget) (dim : BudgetDimension) (log : List UsageRecord) : ℚ :=
  match dim with
  | .maxCostUsd => (log.filterMap UsageRecord.usage).foldl (b.addCost .double) 0
  | dim => b.spent dim log

/-- Twenty calls of 100 prompt tokens, at a price of 1 for 1000 tokens, cost 2 and count for
more. -/
example :
    Budget.spent { pricePer1kInput := some 1 } .maxCostUsd
        (List.replicate 20 ⟨1, "a", some ⟨100, 0, 100⟩, 0⟩) = 2 ∧
      2 < Budget.counted { pricePer1kInput := some 1 } .maxCostUsd
        (List.replicate 20 ⟨1, "a", some ⟨100, 0, 100⟩, 0⟩) := by
  decide +kernel

/-! ## The server -/

/-- A compiled graph: the task it was compiled for, unless it is the startup's, and its
tracker. -/
structure CompiledGraph where
  task : Option String
  tracker : BudgetTracker

/-- The compiled graphs, the executions that are going on, and everything recorded so far. -/
structure BudgetedServer where
  graphs : List CompiledGraph
  executing : List (String × Nat) := []
  log : List UsageRecord := []

namespace BudgetedServer

/-- After the startup there is the shared service's graph. -/
def start (budget : Option Budget) : BudgetedServer :=
  { graphs := [{ task := none, tracker := { budget := budget } }] }

/-- A graph is compiled for a task and executed. -/
def compileFor (budget : Option Budget) (s : BudgetedServer) (taskId : String) : BudgetedServer :=
  { s with
    graphs := s.graphs ++ [{ task := some taskId, tracker := { budget := budget } }]
    executing := s.executing ++ [(taskId, s.graphs.length)] }

/-- The shared service's graph is executed for a task. -/
def shareFor (s : BudgetedServer) (taskId : String) : BudgetedServer :=
  { s with executing := s.executing ++ [(taskId, 0)] }

/-- The calls on a graph. -/
def on (s : BudgetedServer) (g : Nat) : List UsageRecord :=
  s.log.filter (fun r => decide (r.graph = g))

/-- The calls of a task on a graph. -/
def own (s : BudgetedServer) (g : Nat) (taskId : String) : List UsageRecord :=
  s.log.filter (fun r => decide (r.graph = g) && decide (r.taskId = taskId))

end BudgetedServer

inductive BudgetAction
  /-- `POST /tasks` or `POST /tasks/stream`. -/
  | postTask (taskId : String)
  /-- `POST /tasks/{id}/resume`. -/
  | resumeTask (taskId : String)
  /-- `POST /api/agent-room/sessions/{id}/tasks`. -/
  | sessionTask (taskId : String)
  /-- `POST /api/agent-room/sessions/{id}/tasks/{id}/resume`. -/
  | resumeSessionTask (taskId : String)
  /-- A reply of `Transport.invoke`, and what its accounting raised. -/
  | invoke (taskId : String) (graph : Nat) (usage : Option Usage) (toolCalls : Nat)
      (error : Option BudgetExceededError)
  /-- An execution returns or raises. -/
  | finish (taskId : String) (graph : Nat)

/-- One step of the server. A raised error ends its execution. -/
inductive BudgetStep (budget : Option Budget) :
    BudgetedServer → BudgetAction → BudgetedServer → Prop
  | postTask {s : BudgetedServer} {taskId : String} :
      BudgetStep budget s (.postTask taskId) (s.compileFor budget taskId)
  | resumeTask {s : BudgetedServer} {taskId : String} :
      BudgetStep budget s (.resumeTask taskId) (s.compileFor budget taskId)
  | sessionTask {s : BudgetedServer} {taskId : String} :
      BudgetStep budget s (.sessionTask taskId) (s.shareFor taskId)
  | resumeSessionTask {s : BudgetedServer} {taskId : String} :
      BudgetStep budget s (.resumeSessionTask taskId) (s.shareFor taskId)
  | invoke {s : BudgetedServer} {taskId : String} {g : Nat} {c : CompiledGraph}
      {usage : Option Usage} {toolCalls counted : Nat} {error : Option BudgetExceededError}
      {tracker : BudgetTracker} : (taskId, g) ∈ s.executing → s.graphs[g]? = some c →
      c.tracker.account usage toolCalls = (error, counted, tracker) →
      BudgetStep budget s (.invoke taskId g usage toolCalls error)
        { graphs := s.graphs.set g { c with tracker := tracker }
          executing := if error.isSome then s.executing.erase (taskId, g) else s.executing
          log := s.log ++ [⟨g, taskId, usage, counted⟩] }
  | finish {s : BudgetedServer} {taskId : String} {g : Nat} :
      BudgetStep budget s (.finish taskId g)
        { s with executing := s.executing.erase (taskId, g) }

end AgentRoom
