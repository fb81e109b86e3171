import AgentRoom.Web.Sse
import AgentRoom.Schemas

set_option autoImplicit false

/-! # The client's events

`normalizeAgentEvent` turns a frame into the event the user interface shows, or drops it. The
conversions of the language itself are parameters (`Js`); the time of receipt is left out.
-/

namespace AgentRoom.Web

/-- `JSON.parse`, `JSON.stringify`, `String`, and `Number` on ids and on parsed values, with
`none` for what is no finite number. -/
structure Js where
  parse : Text → Option Value
  stringify : Value → String
  string : Value → String
  number : Text → Option Int
  numeric : Value → Option ℚ

/-- The fields of a parsed object. -/
abbrev Record := List (String × Value)

def Record.get (o : Record) (key : String) : Option Value := (o.find? (·.1 == key)).map (·.2)

/-- `a ?? b`, with `none` for `undefined`. -/
def nullish (a b : Option Value) : Option Value :=
  match a with
  | some .none | none => b
  | some v => some v

def asRecord : Option Value → Record
  | some (.dict fields) => fields
  | _ => []

/-- `typeof v === 'string' ? v : undefined`. -/
def asString : Option Value → Option String
  | some (.str s) => some s
  | _ => none

/-- `isRole`: one of `ROLES`. -/
def asRole (v : Option Value) : Option Role :=
  match asString v with
  | some "planner" => some .planner
  | some "developer" => some .developer
  | some "reviewer" => some .reviewer
  | some "delivery" => some .delivery
  | _ => none

/-- A member of `STUCK_ACTIONS`, else `continue`. -/
def asStuckAction (v : Option Value) : StuckAction :=
  match asString v with
  | some "replan" => .replan
  | some "ask_user" => .askUser
  | some "abort" => .abort
  | _ => .continue

/-- `Boolean(v)`. -/
def truthy : Option Value → Bool
  | none | some .none => false
  | some (.bool b) => b
  | some (.int n) => n != 0
  | some (.float q) => q != 0
  | some (.str s) => s != ""
  | some (.list _) | some (.dict _) => true

namespace Js

variable (js : Js)

/-- `typeof v === 'string' ? v : String(v ?? fallback)`. -/
def textOr (fallback : String) (v : Option Value) : String :=
  match nullish v (some (.str fallback)) with
  | some (.str s) => s
  | some v => js.string v
  | none => fallback

/-- `typeof v === 'string' ? v : JSON.stringify(v ?? '')`. -/
def argsText (v : Option Value) : String :=
  match v with
  | some (.str s) => s
  | _ => js.stringify ((nullish v (some (.str ""))).getD .none)

/-- `Number(v ?? 0)`, or `0` where that is not finite. -/
def finiteOrZero (v : Option Value) : ℚ :=
  (js.numeric ((nullish v (some (.int 0))).getD .none)).getD 0

end Js

/-- What an event of each type carries; `exitCode` is `null` or a number, which may be `NaN`. -/
inductive EventBody
  | nodeStart
  | nodeEnd (summary : Record)
  | token (text : String)
  | toolCall (tool args : String)
  | toolResult (tool preview : String)
  | usage (inputTokens outputTokens : ℚ)
  | taskError (error : String)
  | taskFinished (result : Record)
  | verificationCompleted (passed : Bool) (exitCode : Option (Option ℚ)) (round : ℚ)
  | supervisorDecided (action : StuckAction) (reasoning : String)

/-- `type === 'task_finished' || type === 'task_error'`. -/
def EventBody.isTerminal : EventBody → Bool
  | .taskError _ | .taskFinished _ => true
  | _ => false

/-- Tokens, tools, usage and the events of goal mode. -/
def EventBody.isAside : EventBody → Bool
  | .nodeStart | .nodeEnd _ | .taskError _ | .taskFinished _ => false
  | .token _ | .toolCall _ _ | .toolResult _ _ | .usage _ _ | .verificationCompleted _ _ _
  | .supervisorDecided _ _ => true

structure AgentEvent where
  role : Option Role
  taskId : Option String
  raw : Value
  body : EventBody

/-- The cases of `normalizeAgentEvent`, by the type of the frame. -/
def eventBody (js : Js) (type : String) (role : Option Role) (payload envelope : Record) :
    Option EventBody :=
  let field (key : String) := nullish (payload.get key) (envelope.get key)
  if type = "node_start" ∧ role.isSome then some .nodeStart
  else if type = "node_end" ∧ role.isSome then some (.nodeEnd (asRecord (field "summary")))
  else if type = "token" ∧ role.isSome then some (.token (js.textOr "" (field "text")))
  else if type = "tool_call" ∧ role.isSome then
    some (.toolCall (js.textOr "" (field "tool")) (js.argsText (field "args")))
  else if type = "tool_result" ∧ role.isSome then
    some (.toolResult (js.textOr "" (field "tool")) (js.textOr "" (field "preview")))
  else if type = "usage" then
    some (.usage (js.finiteOrZero (field "input_tokens")) (js.finiteOrZero (field "output_tokens")))
  else if type = "task_error" then some (.taskError (js.textOr "任务执行失败" (field "error")))
  else if type = "task_finished" then
    some (.taskFinished (asRecord (nullish (field "result") (some (.dict payload)))))
  else if type = "verification_completed" then
    some (.verificationCompleted (truthy (field "passed"))
      ((nullish (field "exit_code") none).map js.numeric) (js.finiteOrZero (field "round")))
  else if type = "supervisor_decided" then
    some (.supervisorDecided (asStuckAction (field "action")) (js.textOr "" (field "reasoning")))
  else none

/-- `normalizeAgentEvent`. -/
def normalizeAgentEvent (js : Js) (frame : SseFrame) : Option AgentEvent :=
  match js.parse frame.data with
  | none => none
  | some decoded =>
      let envelope := asRecord (some decoded)
      let payload := asRecord
        (nullish (nullish (envelope.get "payload") (envelope.get "data")) (some decoded))
      let type := match frame.event with
        | some event => String.ofList event
        | none => (asString (nullish (nullish (envelope.get "event") (envelope.get "type"))
            (payload.get "type"))).getD ""
      let role := asRole (nullish (payload.get "role") (envelope.get "role"))
      let taskId := asString (nullish (nullish (payload.get "task_id") (envelope.get "task_id"))
        (payload.get "id"))
      (eventBody js type role payload envelope).map fun body => ⟨role, taskId, decoded, body⟩

theorem ite_eq_some {α : Type*} {c : Prop} [Decidable c] {a b : α} {rest : Option α}
    (h : (if c then some a else rest) = some b) : c ∧ a = b ∨ rest = some b := by
  by_cases hc : c
  · rw [if_pos hc, Option.some_inj] at h
    exact Or.inl ⟨hc, h⟩
  · rw [if_neg hc] at h
    exact Or.inr h

/-- Frames named `task_finished` and `task_error` become terminal events, and no others do. -/
theorem eventBody_isTerminal {js : Js} {type : String} {role : Option Role}
    {payload envelope : Record} {body : EventBody}
    (h : eventBody js type role payload envelope = some body) :
    body.isTerminal = (type == "task_finished" || type == "task_error") := by
  unfold eventBody at h
  dsimp only at h
  -- the first five types also need a role
  iterate 5
    obtain ⟨htype, rfl⟩ | h := ite_eq_some h
    · rw [htype.1]
      rfl
  iterate 5
    obtain ⟨htype, rfl⟩ | h := ite_eq_some h
    · rw [htype]
      rfl
  cases h

/-- The types of the events beside the nodes' own. -/
def asideTypes : List String :=
  ["token", "tool_call", "tool_result", "usage", "verification_completed", "supervisor_decided"]

theorem eventBody_isAside {js : Js} {type : String} {role : Option Role}
    {payload envelope : Record} {body : EventBody}
    (h : eventBody js type role payload envelope = some body) :
    body.isAside = decide (type ∈ asideTypes) := by
  unfold eventBody at h
  dsimp only at h
  iterate 5
    obtain ⟨htype, rfl⟩ | h := ite_eq_some h
    · rw [htype.1]
      rfl
  iterate 5
    obtain ⟨htype, rfl⟩ | h := ite_eq_some h
    · rw [htype]
      rfl
  cases h

theorem eventBody_of_terminal {js : Js} {type : String} {role : Option Role}
    {payload envelope : Record} (h : type = "task_finished" ∨ type = "task_error") :
    ∃ body, eventBody js type role payload envelope = some body := by
  unfold eventBody
  rcases h with rfl | rfl <;> simp

theorem normalizeAgentEvent_isTerminal {js : Js} {event data : Text} {id : Option Text}
    {e : AgentEvent} (h : normalizeAgentEvent js ⟨some event, data, id⟩ = some e) :
    e.body.isTerminal =
      (String.ofList event == "task_finished" || String.ofList event == "task_error") := by
  unfold normalizeAgentEvent at h
  split at h
  · cases h
  · obtain ⟨body, hbody, rfl⟩ := Option.map_eq_some_iff.mp h
    exact eventBody_isTerminal hbody

theorem normalizeAgentEvent_isAside {js : Js} {event data : Text} {id : Option Text}
    {e : AgentEvent} (h : normalizeAgentEvent js ⟨some event, data, id⟩ = some e) :
    e.body.isAside = decide (String.ofList event ∈ asideTypes) := by
  unfold normalizeAgentEvent at h
  split at h
  · cases h
  · obtain ⟨body, hbody, rfl⟩ := Option.map_eq_some_iff.mp h
    exact eventBody_isAside hbody

theorem normalizeAgentEvent_of_terminal {js : Js} {event data : Text} {id : Option Text}
    (hparse : (js.parse data).isSome = true)
    (h : String.ofList event = "task_finished" ∨ String.ofList event = "task_error") :
    ∃ e, normalizeAgentEvent js ⟨some event, data, id⟩ = some e := by
  obtain ⟨decoded, hdecoded⟩ := Option.isSome_iff_exists.mp hparse
  unfold normalizeAgentEvent
  rw [hdecoded]
  dsimp only
  obtain ⟨body, hbody⟩ := eventBody_of_terminal h
  rw [hbody]
  exact ⟨_, rfl⟩

end AgentRoom.Web
