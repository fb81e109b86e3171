import AgentRoom.Web.AgentEvent
import Mathlib.Data.List.DropRight
import Mathlib.Logic.Function.Basic
import Mathlib.Tactic.Common

set_option autoImplicit false

/-! # The store behind the office

What the user interface keeps of the task it shows: `applyEvent` folds in a live event,
`applySnapshot` a result that was fetched. The timeline, which nothing reads back, and the times
of events are left out. `undefined` is `none`; a role is a key of `agents`, where the keys that
are no desk (`Role.verifier`, `Role.supervisor`) are never written.
-/

namespace AgentRoom.Web

inductive ConnectionState
  | idle | connecting | live | recovering | offline
  deriving DecidableEq, Repr

inductive ServerStatus
  | running | awaitingUser | completed | failed
  deriving DecidableEq, Repr

def asServerStatus (v : Option Value) : Option ServerStatus :=
  match asString v with
  | some "running" => some .running
  | some "awaiting_user" => some .awaitingUser
  | some "completed" => some .completed
  | some "failed" => some .failed
  | _ => none

/-- The UTF-16 code units of a character. -/
def codeUnits (c : Char) : List UInt16 :=
  if c.toNat < 0x10000 then [c.toNat.toUInt16]
  else
    let n := c.toNat - 0x10000
    [(0xD800 + n / 0x400).toUInt16, (0xDC00 + n % 0x400).toUInt16]

/-- One desk of the office. -/
structure AgentRuntime where
  active : Bool := false
  completed : Bool := false
  tokens : List UInt16 := []
  tool : Option String := none
  toolPreview : Option String := none
  inputTokens : ℚ := 0
  outputTokens : ℚ := 0
  summary : Option Record := none

/-- The outcome of the last verification. -/
structure Verification where
  passed : Bool
  round : ℚ
  exitCode : Option (Option ℚ)

structure Handoff where
  source : Option Role
  target : Role

structure TaskStore where
  taskId : Option String := none
  instruction : String := ""
  serverStatus : Option ServerStatus := none
  activeRole : Option Role := none
  lastRole : Option Role := none
  reviewDecision : Option Value := none
  round : ℚ := 0
  hasStarted : Bool := false
  resuming : Bool := false
  connection : ConnectionState := .idle
  agents : Role → AgentRuntime := fun _ => {}
  result : Option Record := none
  error : Option String := none
  interrupted : Bool := false
  verification : Option Verification := none
  handoff : Option Handoff := none

namespace TaskStore

/-- `reset`. -/
def reset (instruction : String) : TaskStore := { instruction }

/-- `{ ...agents, [role]: f(agents[role]) }`. -/
def setAgent (s : TaskStore) (role : Role) (f : AgentRuntime → AgentRuntime) : TaskStore :=
  { s with agents := Function.update s.agents role (f (s.agents role)) }

end TaskStore

/-- `resultStatus`. -/
def resultStatus (result : Record) : Option ServerStatus := asServerStatus (result.get "status")

/-! ## Snapshots -/

/-- `normalizeTaskResult`: what a wrapped `result` says goes over the rest. -/
def normalizeTaskResult (v : Value) : Record :=
  let root := asRecord (some v)
  let nested := asRecord (root.get "result")
  root.map (fun field => (field.1, (nested.get field.1).getD field.2)) ++
    nested.filter fun field => (root.get field.1).isNone

/-- `Array.isArray(result.artifacts) ? result.artifacts : []`. -/
def resultArtifacts (result : Record) : List Value :=
  match result.get "artifacts" with
  | some (.list artifacts) => artifacts
  | _ => []

/-- `typeof v === 'number'`. -/
def asNumber : Option Value → Option ℚ
  | some (.int n) => some n
  | some (.float q) => some q
  | _ => none

/-- What `rebuildFromSnapshot` returns, the timeline apart. -/
structure Rebuilt where
  agents : Role → AgentRuntime := fun _ => {}
  reviewDecision : Option Value := none
  round : ℚ := 0

/-- One turn of the loop over the artifacts. -/
def Rebuilt.addArtifact (r : Rebuilt) (raw : Value) : Rebuilt :=
  let a := asRecord (some raw)
  { r with
    agents :=
      match asRole (a.get "role") with
      | some role => Function.update r.agents role { r.agents role with completed := true }
      | none => r.agents
    round :=
      match asNumber (a.get "round") with
      | some round => max r.round round
      | none => r.round }

/-- `rebuildFromSnapshot`. -/
def rebuildFromSnapshot (result : Record) : Rebuilt :=
  { (resultArtifacts result).foldl Rebuilt.addArtifact {} with
    reviewDecision := (asRecord (result.get "review")).get "decision" }

namespace TaskStore

variable (js : Js)

/-- `applySnapshot`. -/
def applySnapshot (s : TaskStore) (result : Record) : TaskStore :=
  let status := resultStatus result
  let rebuilt := rebuildFromSnapshot result
  let id := nullish (nullish (result.get "task_id") (result.get "id"))
    (s.taskId.map Value.str)
  { s with
    taskId := (asString id).or s.taskId
    serverStatus := status.or s.serverStatus
    result := some result
    connection :=
      if status = some .completed ∨ status = some .failed ∨ status = some .awaitingUser then .idle
      else s.connection
    instruction := (asString (result.get "task")).getD s.instruction
    error :=
      if truthy (result.get "error") then some (js.textOr "" (result.get "error")) else s.error
    hasStarted := true
    interrupted := false
    activeRole := none
    lastRole := none
    agents := rebuilt.agents
    reviewDecision := nullish rebuilt.reviewDecision s.reviewDecision
    round := rebuilt.round }

/-! ## Events -/

def applyToken (s : TaskStore) (role : Role) (text : String) : TaskStore :=
  s.setAgent role fun current =>
    { current with tokens := (current.tokens ++ text.toList.flatMap codeUnits).rtake 1200 }

def applyNodeStart (s : TaskStore) (role : Role) : TaskStore :=
  { s.setAgent role (fun current =>
      { current with active := true, completed := false, tokens := [] }) with
    hasStarted := true
    serverStatus := some .running
    activeRole := some role
    reviewDecision :=
      if role = .developer ∧ asString s.reviewDecision = some "revision_required" then none
      else s.reviewDecision
    connection := .live
    handoff := some ⟨s.activeRole.or s.lastRole, role⟩ }

/-- `Number(event.summary.round ?? state.round + 1)`, or the old round where that is not
finite. -/
def nextRound (s : TaskStore) (summary : Record) : ℚ :=
  match nullish (summary.get "round") none with
  | some v => (js.numeric v).getD s.round
  | none => s.round + 1

def applyNodeEnd (s : TaskStore) (role : Role) (summary : Record) : TaskStore :=
  { s.setAgent role (fun current =>
      { current with active := false, completed := true, summary := some summary }) with
    activeRole := if s.activeRole = some role then none else s.activeRole
    lastRole := some role
    -- only the reviewer's summary has a decision and a round
    reviewDecision :=
      if role = .reviewer then
        match asString (summary.get "decision") with
        | some decision => some (.str decision)
        | none => s.reviewDecision
      else s.reviewDecision
    round := if role = .reviewer then s.nextRound js summary else s.round }

def applyToolCall (s : TaskStore) (role : Role) (tool : String) : TaskStore :=
  s.setAgent role fun current => { current with tool := some tool, toolPreview := none }

def applyToolResult (s : TaskStore) (role : Role) (preview : String) : TaskStore :=
  s.setAgent role fun current => { current with tool := none, toolPreview := some preview }

def applyUsage (s : TaskStore) (role : Role) (inputTokens outputTokens : ℚ) : TaskStore :=
  s.setAgent role fun current =>
    { current with
      inputTokens := current.inputTokens + inputTokens
      outputTokens := current.outputTokens + outputTokens }

def applyTaskError (s : TaskStore) (error : String) : TaskStore :=
  { s with
    serverStatus := some .failed, activeRole := none, connection := .idle, error := some error }

/-- The status a finished task is shown with. -/
def finalStatus (result : Record) : ServerStatus :=
  (resultStatus result).getD (if truthy (result.get "error") then .failed else .completed)

/-- `applyEvent` of a `task_finished`, whose task id is `taskId`. -/
def applyTaskFinished (s : TaskStore) (taskId : Option String) (result : Record) : TaskStore :=
  { s with
    taskId := (taskId.or (asString (result.get "task_id"))).or s.taskId
    result := some result
    serverStatus := some (finalStatus result)
    activeRole := none
    connection := .idle
    error :=
      if finalStatus result = .failed then some (js.textOr "任务执行失败" (result.get "error"))
      else none }

/-- `applyEvent`. Of the types that need a role `normalizeAgentEvent` makes no event without
one. -/
def applyEvent (s : TaskStore) (event : AgentEvent) : TaskStore :=
  let s' := { s with taskId := event.taskId.or s.taskId }
  match event.body, event.role with
  | .token text, some role => s'.applyToken role text
  | .nodeStart, some role => s'.applyNodeStart role
  | .nodeEnd summary, some role => s'.applyNodeEnd js role summary
  | .toolCall tool _, some role => s'.applyToolCall role tool
  | .toolResult _ preview, some role => s'.applyToolResult role preview
  | .usage inputTokens outputTokens, some role => s'.applyUsage role inputTokens outputTokens
  | .taskError error, _ => s'.applyTaskError error
  | .verificationCompleted passed exitCode round, _ =>
      { s' with verification := some ⟨passed, round, exitCode⟩ }
  | .supervisorDecided _ _, _ => s'
  | .taskFinished result, _ => s.applyTaskFinished js event.taskId result
  | _, none => s'

/-- The events of a stream, one after the other. -/
def applyEvents (s : TaskStore) (events : List AgentEvent) : TaskStore :=
  events.foldl (applyEvent js) s

@[simp] theorem applyEvents_nil (s : TaskStore) : s.applyEvents js [] = s := rfl

@[simp] theorem applyEvents_append (s : TaskStore) (events later : List AgentEvent) :
    s.applyEvents js (events ++ later) = (s.applyEvents js events).applyEvents js later :=
  List.foldl_append

@[simp] theorem applyEvents_singleton (s : TaskStore) (event : AgentEvent) :
    s.applyEvents js [event] = s.applyEvent js event := rfl

/-! ## Who works -/

/-- The role works, by its own flag. -/
def Works (s : TaskStore) (role : Role) : Prop := (s.agents role).active = true

theorem works_setAgent {s : TaskStore} {role : Role} {f : AgentRuntime → AgentRuntime}
    (hf : ∀ current, (f current).active = current.active) (other : Role) :
    (s.setAgent role f).Works other ↔ s.Works other := by
  unfold Works setAgent
  dsimp only
  by_cases h : other = role
  · rw [h, Function.update_self, hf]
  · rw [Function.update_of_ne h]

theorem works_applyToken (s : TaskStore) (role : Role) (text : String) (other : Role) :
    (s.applyToken role text).Works other ↔ s.Works other := by
  unfold applyToken
  exact works_setAgent (by intro current; rfl) other

theorem works_applyToolCall (s : TaskStore) (role : Role) (tool : String) (other : Role) :
    (s.applyToolCall role tool).Works other ↔ s.Works other := by
  unfold applyToolCall
  exact works_setAgent (by intro current; rfl) other

theorem works_applyToolResult (s : TaskStore) (role : Role) (preview : String) (other : Role) :
    (s.applyToolResult role preview).Works other ↔ s.Works other := by
  unfold applyToolResult
  exact works_setAgent (by intro current; rfl) other

theorem works_applyUsage (s : TaskStore) (role : Role) (inputTokens outputTokens : ℚ)
    (other : Role) :
    (s.applyUsage role inputTokens outputTokens).Works other ↔ s.Works other := by
  unfold applyUsage
  exact works_setAgent (by intro current; rfl) other

theorem works_applyNodeStart (s : TaskStore) (role other : Role) :
    (s.applyNodeStart role).Works other ↔ other = role ∨ s.Works other := by
  unfold Works applyNodeStart setAgent
  dsimp only
  by_cases h : other = role
  · rw [h, Function.update_self]
    simp
  · rw [Function.update_of_ne h]
    simp [h]

theorem works_applyNodeEnd (s : TaskStore) (role other : Role) (summary : Record) :
    (s.applyNodeEnd js role summary).Works other ↔ other ≠ role ∧ s.Works other := by
  unfold Works applyNodeEnd setAgent
  dsimp only
  by_cases h : other = role
  · rw [h, Function.update_self]
    simp
  · rw [Function.update_of_ne h]
    simp [h]

/-- An artifact is the work of a desk that is done. -/
theorem not_active_addArtifact {r : Rebuilt} (hr : ∀ role, (r.agents role).active = false)
    (raw : Value) (role : Role) : ((r.addArtifact raw).agents role).active = false := by
  unfold Rebuilt.addArtifact
  dsimp only
  cases asRole ((asRecord (some raw)).get "role") with
  | none => exact hr role
  | some written =>
      by_cases h : role = written
      · rw [h]
        simpa using hr written
      · simpa [Function.update_of_ne h] using hr role

/-- A snapshot shows nobody at work. -/
theorem not_works_applySnapshot (s : TaskStore) (result : Record) (role : Role) :
    ¬ (s.applySnapshot js result).Works role := by
  have hfold : ∀ (artifacts : List Value) (r : Rebuilt), (∀ role, (r.agents role).active = false) →
      ∀ role, ((artifacts.foldl Rebuilt.addArtifact r).agents role).active = false := by
    intro artifacts
    induction artifacts with
    | nil => exact fun r hr => hr
    | cons raw rest ih => exact fun r hr => ih _ (not_active_addArtifact hr raw)
  have hnone := hfold (resultArtifacts result) {} (fun _ => rfl) role
  simpa [Works, applySnapshot, rebuildFromSnapshot] using hnone

end TaskStore

end AgentRoom.Web
