import AgentRoom.Server.StreamEvents
import AgentRoom.Web.StreamTask

set_option autoImplicit false

/-! # Server and client agree on every event

The client's `normalizeAgentEvent` is a left inverse of the server's `format_stream_event`:
whatever message is sent, the event that comes out has its type, its role, its task id and its
payload (`UiEvent.seen`). Only a `token` without a role is dropped.
-/

namespace AgentRoom

mutual

/-- The integers in a value. -/
def Value.ints : Value → List Int
  | .int n => [n]
  | .list xs => Value.intsList xs
  | .dict fields => Value.intsFields fields
  | _ => []

def Value.intsList : List Value → List Int
  | [] => []
  | v :: rest => v.ints ++ Value.intsList rest

def Value.intsFields : List (String × Value) → List Int
  | [] => []
  | (_, v) :: rest => v.ints ++ Value.intsFields rest

end

namespace Web

/-- What is relied on of the language for a value: `JSON.parse` gives back what `json.dumps` was
given, and `Number` keeps an integer, as long as a double holds the integers exactly. -/
structure Js.ReadsBack (js : Js) (dumps : Value → Text) (v : Value) : Prop where
  parse_dumps : (∀ n ∈ v.ints, n.natAbs < 2 ^ 53) → js.parse (dumps v) = some v
  numeric_int : ∀ n : Int, n.natAbs < 2 ^ 53 → js.numeric (.int n) = some (n : ℚ)

/-- The `type` of an event. -/
def EventBody.type : EventBody → String
  | .nodeStart => "node_start"
  | .nodeEnd _ => "node_end"
  | .token _ => "token"
  | .toolCall _ _ => "tool_call"
  | .toolResult _ _ => "tool_result"
  | .usage _ _ => "usage"
  | .taskError _ => "task_error"
  | .taskFinished _ => "task_finished"
  | .verificationCompleted _ _ _ => "verification_completed"
  | .supervisorDecided _ _ => "supervisor_decided"

/-- An event has the payload of a dictionary. -/
def EventBody.Carries (d : Record) : EventBody → Prop
  | .nodeStart => True
  | .nodeEnd summary => d.get "summary" = some (.dict summary)
  | .token text => d.get "text" = some (.str text)
  | .toolCall tool args => d.get "tool" = some (.str tool) ∧ d.get "args" = some (.str args)
  | .toolResult tool preview =>
      d.get "tool" = some (.str tool) ∧ d.get "preview" = some (.str preview)
  | .usage inputTokens outputTokens =>
      (∃ n : Int, d.get "input_tokens" = some (.int n) ∧ inputTokens = n) ∧
        ∃ n : Int, d.get "output_tokens" = some (.int n) ∧ outputTokens = n
  | .verificationCompleted passed exitCode round =>
      d.get "passed" = some (.bool passed) ∧
        ((d.get "exit_code" = some .none ∧ exitCode = none) ∨
          ∃ n : Int, d.get "exit_code" = some (.int n) ∧ exitCode = some (some (n : ℚ))) ∧
        ∃ n : Int, d.get "round" = some (.int n) ∧ round = n
  | .supervisorDecided action reasoning =>
      d.get "action" = some (.str action.text) ∧ d.get "reasoning" = some (.str reasoning)
  | .taskError _ | .taskFinished _ => False

/-- An event says what a dictionary says. -/
structure AgentEvent.Shows (event : AgentEvent) (d : Record) : Prop where
  type : d.get "type" = some (.str event.body.type)
  role : ∀ r : UiRole, d.get "role" = some (.str r.text) → event.role = some r.role
  taskId : d.get "task_id" = some (.ofText event.taskId)
  payload : event.body.Carries d

/-- The dictionaries a client is to show: those with one of its roles, and those of the types
that need none. -/
def ForClient (d : Record) : Prop :=
  (∃ name ∈ roleNames, d.get "role" = some (.str name)) ∨
    ∃ type ∈ ["usage", "verification_completed", "supervisor_decided"],
      d.get "type" = some (.str type)

end Web

open Web

/-- What the client shows of a message. -/
def UiBody.seen : UiBody → Option EventBody
  | nodeStart _ => some .nodeStart
  | nodeEnd _ summary => some (.nodeEnd summary)
  | token none _ => none
  | token (some _) text => some (.token text)
  | toolCall _ tool args => some (.toolCall tool args)
  | toolResult _ tool preview => some (.toolResult tool preview)
  | usage _ inputTokens outputTokens => some (.usage inputTokens outputTokens)
  | verificationCompleted passed exitCode round =>
      some (.verificationCompleted passed (exitCode.map (fun n : Int => some (n : ℚ))) round)
  | supervisorDecided action reasoning => some (.supervisorDecided action reasoning)

/-- The event the client makes of a message. -/
def UiEvent.seen (u : UiEvent) : Option AgentEvent :=
  u.body.seen.map fun body =>
    ⟨asRole (some (.ofText (u.body.role.map Role.text))), u.taskId, .dict u.dict, body⟩

namespace UiEvent

variable {js : Js} {dumps : Value → Text}

theorem get_type (u : UiEvent) : Record.get u.dict "type" = some (.str u.body.type) := rfl

theorem get_role (u : UiEvent) :
    Record.get u.dict "role" = some (.ofText (u.body.role.map Role.text)) := rfl

theorem get_taskId (u : UiEvent) : Record.get u.dict "task_id" = some (.ofText u.taskId) := rfl

/-- A message has none of the keys a client looks for besides its own. -/
theorem get_foreign (u : UiEvent) {key : String} (hkey : key ∈ ["payload", "data", "id"]) :
    Record.get u.dict key = none := by
  simp only [List.mem_cons, List.not_mem_nil, or_false] at hkey
  rcases hkey with rfl | rfl | rfl <;>
    cases u with | mk taskId body => cases body <;> simp [dict, UiBody.payload, Record.get]

/-! ## The fields of the client's event -/

@[simp] theorem nullish_self (v : Option Value) : nullish v v = v := by
  rcases v with _ | v
  · rfl
  · cases v <;> rfl

@[simp] theorem asRole_text (r : UiRole) : asRole (some (.str r.text)) = some r.role := by
  cases r <;> rfl

@[simp] theorem asStuckAction_text (action : StuckAction) :
    asStuckAction (some (.str action.text)) = action := by
  cases action <;> rfl

/-- The task id, `undefined` where there is none. -/
theorem asString_ofText (s : Option String) :
    asString (nullish (some (.ofText s)) none) = s := by
  cases s <;> rfl

@[simp] theorem textOr_str (js : Js) (fallback s : String) :
    js.textOr fallback (some (.str s)) = s := rfl

@[simp] theorem argsText_str (js : Js) (s : String) : js.argsText (some (.str s)) = s := rfl

theorem finiteOrZero_int {n : Int} (hn : js.numeric (.int n) = some (n : ℚ)) :
    js.finiteOrZero (some (.int n)) = n := by
  show (js.numeric (.int n)).getD 0 = n
  rw [hn, Option.getD_some]

/-- The exit code, `null` where there is none. -/
theorem exitCode_ofInt (exitCode : Option Int)
    (h : ∀ n, exitCode = some n → js.numeric (.int n) = some (n : ℚ)) :
    (nullish (some (.ofInt exitCode)) none).map js.numeric
      = exitCode.map (fun n : Int => some (n : ℚ)) := by
  cases exitCode with
  | none => rfl
  | some n =>
      rw [Option.map_some, ← h n rfl]
      rfl

/-- The body of a message, read back. -/
theorem eventBody_dict {u : UiEvent}
    (hnum : ∀ n ∈ (Value.dict u.dict).ints, js.numeric (.int n) = some (n : ℚ)) :
    eventBody js u.body.type (asRole (some (.ofText (u.body.role.map Role.text)))) u.dict u.dict
      = u.body.seen := by
  obtain ⟨taskId, body⟩ := u
  have hrole (r : UiRole) : asRole (some (.ofText (some r.role.text))) = some r.role :=
    asRole_text r
  cases body with
  | nodeStart r => simp [eventBody, UiBody.type, UiBody.role, hrole, UiBody.seen]
  | nodeEnd r summary =>
      simp [eventBody, UiBody.type, UiBody.role, hrole, UiBody.seen, dict, UiBody.payload,
        Record.get, asRecord]
  | token r text =>
      cases r with
      | none => rfl
      | some r =>
          simp [eventBody, UiBody.type, UiBody.role, hrole, UiBody.seen, dict,
            UiBody.payload, Record.get]
  | toolCall r tool args =>
      simp [eventBody, UiBody.type, UiBody.role, hrole, UiBody.seen, dict, UiBody.payload,
        Record.get]
  | toolResult r tool preview =>
      simp [eventBody, UiBody.type, UiBody.role, hrole, UiBody.seen, dict, UiBody.payload,
        Record.get]
  | usage r inputTokens outputTokens =>
      have hinput := finiteOrZero_int (hnum inputTokens (by
        simp [dict, UiBody.payload, Value.ints, Value.intsFields]))
      have houtput := finiteOrZero_int (hnum outputTokens (by
        simp [dict, UiBody.payload, Value.ints, Value.intsFields]))
      simp [eventBody, UiBody.type, UiBody.seen, dict, UiBody.payload, Record.get, hinput,
        houtput]
  | verificationCompleted passed exitCode round =>
      have hexit := exitCode_ofInt exitCode (fun n hn => hnum n (by
        simp [dict, UiBody.payload, Value.ints, Value.intsFields, hn, Value.ofInt]))
      have hround := finiteOrZero_int (hnum round (by
        simp [dict, UiBody.payload, Value.ints, Value.intsFields]))
      simp [eventBody, UiBody.type, UiBody.seen, dict, UiBody.payload, Record.get, truthy,
        hexit, hround]
  | supervisorDecided action reasoning =>
      simp [eventBody, UiBody.type, UiBody.seen, dict, UiBody.payload, Record.get]

/-- **What the client makes of a message**: exactly the event it stands for. -/
theorem normalizeAgentEvent_dict {u : UiEvent} (hjs : js.ReadsBack dumps (.dict u.dict))
    (hints : ∀ n ∈ (Value.dict u.dict).ints, n.natAbs < 2 ^ 53) (seq : Nat) :
    normalizeAgentEvent js (wireFrame dumps (formattedFrame u.dict, seq)) = u.seen := by
  have hnum : ∀ n ∈ (Value.dict u.dict).ints, js.numeric (.int n) = some (n : ℚ) :=
    fun n hn => hjs.numeric_int n (hints n hn)
  have hparse : js.parse (wireFrame dumps (formattedFrame u.dict, seq)).data
      = some (.dict u.dict) := hjs.parse_dumps hints
  have hevent : (wireFrame dumps (formattedFrame u.dict, seq)).event = some u.body.type.toList :=
    rfl
  have hpayload : asRecord (nullish (nullish (Record.get u.dict "payload")
      (Record.get u.dict "data")) (some (.dict u.dict))) = u.dict := by
    rw [get_foreign u (show "payload" ∈ _ by decide), get_foreign u (show "data" ∈ _ by decide)]
    rfl
  have hrole : nullish (Record.get u.dict "role") (Record.get u.dict "role")
      = some (.ofText (u.body.role.map Role.text)) := by
    rw [nullish_self, get_role]
  have htask : asString (nullish (nullish (Record.get u.dict "task_id")
      (Record.get u.dict "task_id")) (Record.get u.dict "id")) = u.taskId := by
    rw [nullish_self, get_taskId, get_foreign u (show "id" ∈ _ by decide), asString_ofText]
  rw [normalizeAgentEvent, hparse, hevent]
  dsimp only
  rw [show asRecord (some (.dict u.dict)) = u.dict from rfl, hpayload, hrole, htask,
    String.ofList_toList, eventBody_dict hnum]
  rfl

/-! ## Nothing is lost -/

/-- What the client shows says what the message says. -/
theorem shows_of_seen {u : UiEvent} {event : AgentEvent} (h : u.seen = some event) :
    event.Shows u.dict := by
  obtain ⟨body, hbody, rfl⟩ := Option.map_eq_some_iff.mp h
  constructor
  · rw [get_type]
    obtain ⟨taskId, sent⟩ := u
    cases sent with
    | token r text =>
        cases r with
        | none => cases hbody
        | some r =>
            cases hbody
            rfl
    | _ =>
        cases hbody
        rfl
  · intro r hr
    rw [get_role] at hr
    show asRole (some (.ofText (u.body.role.map Role.text))) = some r.role
    rw [Option.some.inj hr, asRole_text]
  · exact get_taskId u
  · obtain ⟨taskId, sent⟩ := u
    cases sent with
    | nodeStart r =>
        cases hbody
        trivial
    | nodeEnd r summary =>
        cases hbody
        rfl
    | token r text =>
        cases r with
        | none => cases hbody
        | some r =>
            cases hbody
            rfl
    | toolCall r tool args =>
        cases hbody
        exact ⟨rfl, rfl⟩
    | toolResult r tool preview =>
        cases hbody
        exact ⟨rfl, rfl⟩
    | usage r inputTokens outputTokens =>
        cases hbody
        exact ⟨⟨inputTokens, rfl, rfl⟩, outputTokens, rfl, rfl⟩
    | verificationCompleted passed exitCode round =>
        cases hbody
        refine ⟨rfl, ?_, round, rfl, by simp⟩
        cases exitCode with
        | none => exact .inl ⟨rfl, rfl⟩
        | some n => exact .inr ⟨n, rfl, rfl⟩
    | supervisorDecided action reasoning =>
        cases hbody
        exact ⟨rfl, rfl⟩

/-- Only a token without a role is not for the client. -/
theorem exists_seen {u : UiEvent} (h : ForClient u.dict) : ∃ event, u.seen = some event := by
  cases hbody : u.body.seen with
  | some body => exact ⟨_, congrArg (Option.map _) hbody⟩
  | none =>
      exfalso
      obtain ⟨taskId, sent⟩ := u
      cases sent with
      | token r text =>
          cases r with
          | some r => cases hbody
          | none =>
              rcases h with ⟨name, -, hname⟩ | ⟨type, hmem, htype⟩
              · cases hname
              · rw [get_type] at htype
                cases htype
                simp [UiBody.type] at hmem
      | _ => cases hbody

end UiEvent

/-- **Server and client agree**: of every formatted event that is for it, the client gets back
type, role, task id and payload. -/
theorem normalizeAgentEvent_formatStreamEvent {js : Js} {dumps : Value → Text} {e : StreamEvent}
    {d : Record} (hformat : formatStreamEvent e = .ok (some d)) (hclient : ForClient d)
    (hints : ∀ n ∈ (Value.dict d).ints, n.natAbs < 2 ^ 53)
    (hjs : js.ReadsBack dumps (.dict d)) (seq : Nat) :
    ∃ event, normalizeAgentEvent js (wireFrame dumps (formattedFrame d, seq)) = some event ∧
      event.Shows d := by
  obtain ⟨u, rfl⟩ := exists_uiEvent hformat
  obtain ⟨event, hseen⟩ := UiEvent.exists_seen hclient
  refine ⟨event, ?_, UiEvent.shows_of_seen hseen⟩
  rw [UiEvent.normalizeAgentEvent_dict hjs hints seq, hseen]

/-! ## A failed verification -/

/-- The end of a `verify` node whose command has failed. -/
def failedVerification : StreamEvent where
  data := .chainEnd (some { verification := some (some
    { passed := false, exitCode := some 1, outputTail := "fail", round := 2 }) }) false
  name := "verify"
  taskId := some "t1"

def failedDict : Record :=
  [("type", .str "verification_completed"), ("role", .str "verifier"), ("task_id", .str "t1"),
    ("passed", .bool false), ("exit_code", .int 1), ("round", .int 2)]

def failedText : Text :=
  ("\x7b\"type\": \"verification_completed\", \"role\": \"verifier\", \"task_id\": \"t1\", " ++
    "\"passed\": false, \"exit_code\": 1, \"round\": 2\x7d").toList

/-- The language on this text and on integers. -/
def verificationJs : Js where
  parse t := if t = failedText then some (.dict failedDict) else none
  stringify _ := ""
  string _ := ""
  number _ := none
  numeric v := match v with
    | .int n => some n
    | _ => none

theorem normalizeAgentEvent_failedVerification :
    ∃ event, normalizeAgentEvent verificationJs
        (wireFrame (fun _ => failedText) (formattedFrame failedDict, 3)) = some event ∧
      event.Shows failedDict := by
  have hints : ∀ n ∈ (Value.dict failedDict).ints, n.natAbs < 2 ^ 53 := by
    simp [failedDict, Value.ints, Value.intsFields]
  have hjs : verificationJs.ReadsBack (fun _ => failedText) (.dict failedDict) := by
    constructor
    · intro _
      simp only [verificationJs, if_true]
    · intro n _
      rfl
  have hformat : formatStreamEvent failedVerification = .ok (some failedDict) := rfl
  exact normalizeAgentEvent_formatStreamEvent hformat
    (.inr ⟨"verification_completed", by decide, rfl⟩) hints hjs 3

end AgentRoom
