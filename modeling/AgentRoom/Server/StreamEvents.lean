import AgentRoom.Context.Tokens
import AgentRoom.Server.Runs
import AgentRoom.Lib.Fallible

set_option autoImplicit false

/-! # From the events of a graph to the events of the API

`formatStreamEvent` turns what `astream_events` yields into the dictionaries that are sent. Of
an object of which only `str` is taken, that text is what an event holds here. The contract of
the module's docstring is `UiEvent`: every dictionary is one of its eight kinds
(`exists_uiEvent`).
-/

namespace AgentRoom

/-! ## The events of a graph -/

/-- The `usage_metadata` of a message; further keys are not read. -/
structure UsageMetadata where
  inputTokens : Option Int := none
  outputTokens : Option Int := none

/-- What a tool event carries as its output. -/
inductive ToolOutput
  | message (content : String)
  | object (text : String)
  | none

/-- The type of an event with its data. `dumped` tells whether the models that the node
returned are shown as they are or serialised; `usage` is `none` for an absent or empty
dictionary. -/
inductive EventData
  | chainStart
  | chainEnd (output : Option Update) (dumped : Bool)
  | chatModelStream (content : Option Content)
  | chatModelEnd (usage : Option UsageMetadata)
  | toolStart (input : String)
  | toolEnd (output : ToolOutput)
  | other (event : String)

/-- An event of `service.stream`. -/
structure StreamEvent where
  data : EventData
  name : String := ""
  taskId : Option String := none
  tags : List String := []
  metadataTags : List String := []
  langgraphNode : Option String := none

/-- Why an event is not formatted. -/
inductive FormatError
  | typeError
  deriving DecidableEq, Repr

/-! ## The helpers of `events.py` -/

/-- `v or w`. -/
def Value.or (v w : Value) : Value := if v.truthy then v else w

def Value.ofText : Option String → Value
  | some s => .str s
  | Option.none => .none

def Value.ofInt : Option Int → Value
  | some n => .int n
  | Option.none => .none

def VerificationResult.modelDump (v : VerificationResult) : List (String × Value) :=
  [("passed", .bool v.passed), ("exit_code", .ofInt v.exitCode),
    ("output_tail", .str v.outputTail), ("round", .int v.round)]

def StuckDecision.modelDump (d : StuckDecision) : List (String × Value) :=
  [("action", .str d.action.text), ("reasoning", .str d.reasoning), ("question", .str d.question)]

/-- A model in the output of a node: the object, or the dictionary it serialises to. -/
inductive Surfaced
  | object (attributes : List (String × Value))
  | dict (entries : List (String × Value))

namespace Surfaced

def of (dumped : Bool) (fields : List (String × Value)) : Surfaced :=
  if dumped then .dict fields else .object fields

/-- `getattr(obj, key, None)`; no key read here is an attribute of a dictionary. -/
def getattr (key : String) : Surfaced → Value
  | object attributes => (attributes.lookup key).getD .none
  | dict _ => .none

/-- `obj.get(key) if isinstance(obj, dict) else None`. -/
def entry (key : String) : Surfaced → Value
  | object _ => .none
  | dict entries => (entries.lookup key).getD .none

/-- `_field`. -/
def field (key : String) : Surfaced → Value
  | dict entries => (dict entries).entry key
  | object attributes => (object attributes).getattr key

end Surfaced

/-- The four names a client knows as roles. -/
def roleNames : List String := ["planner", "developer", "reviewer", "delivery"]

/-- `_truncate`, of the text of a value. -/
def truncateText (text : String) (limit : Nat) : String :=
  if text.length ≤ limit then text else Py.firstChars limit text ++ "…"

/-- `_tool_output_text`. -/
def toolOutputText : ToolOutput → String
  | .message content => content
  | .object text => text
  | .none => ""

/-- The text of one part of a list-shaped content, which `join` must be given a `str`. -/
def Block.streamedText : Block → Except FormatError String
  | .str s => .ok s
  | .dict fields =>
      match (fields.lookup "text").getD (.str "") with
      | .str s => .ok s
      | _ => .error .typeError

/-- The text of a chunk. -/
def streamedText : Option Content → Except FormatError String
  | none => .ok ""
  | some (.str s) => .ok s
  | some (.blocks bs) => (bs.mapM Block.streamedText).map (Py.join "")

/-- `_summarize_node_output`. -/
def summarizeNodeOutput (role : String) (output : Update) (dumped : Bool) :
    List (String × Value) :=
  if role = "planner" then [("plan_preview", .str (Py.firstChars 200 (Py.orEmpty output.plan)))]
  else if role = "developer" then [("code_chars", .int (Py.orEmpty output.code).length)]
  else if role = "reviewer" then
    match output.review.join with
    | none => []
    | some review =>
        let review := Surfaced.of dumped review.modelDump
        [("decision", (review.getattr "decision").or (review.entry "decision")),
          ("round", .ofInt (output.revisionRound.map Int.ofNat))]
  else if role = "delivery" then
    [("delivery_chars", .int (Py.orEmpty output.delivery).length)]
  else []

/-- `_infer_role_from_metadata`. -/
def inferRoleFromMetadata (e : StreamEvent) : Option String :=
  let tags := if e.metadataTags = [] then e.tags else e.metadataTags
  match roleNames.find? (fun role => role ∈ tags) with
  | some role => some role
  | none =>
      match e.langgraphNode with
      | none => none
      | some parent =>
          if parent ∈ roleNames then some parent
          else if "_tools".toList <:+ parent.toList then
            -- a tool node is named after its developer
            let base := Py.firstChars (parent.length - "_tools".length) parent
            if base ∈ roleNames then some base else none
          else none

/-- `format_stream_event`. -/
def formatStreamEvent (e : StreamEvent) : Except FormatError (Option (List (String × Value))) :=
  match e.data with
  | .chainStart =>
      .ok (if e.name ∈ roleNames then
        some [("type", .str "node_start"), ("role", .str e.name), ("task_id", .ofText e.taskId)]
      else none)
  | .chainEnd output dumped =>
      let output := output.getD {}
      .ok (if e.name ∈ roleNames then
        some [("type", .str "node_end"), ("role", .str e.name), ("task_id", .ofText e.taskId),
          ("summary", .dict (summarizeNodeOutput e.name output dumped))]
      else if e.name = "verify" then
        output.verification.join.map fun verification =>
          let verification := Surfaced.of dumped verification.modelDump
          [("type", .str "verification_completed"), ("role", .str "verifier"),
            ("task_id", .ofText e.taskId), ("passed", .bool (verification.field "passed").truthy),
            ("exit_code", verification.field "exit_code"),
            ("round", (verification.field "round").or (.int 0))]
      else if e.name = "supervisor" then
        output.stuckDecision.map fun decision =>
          let decision := Surfaced.of dumped decision.modelDump
          [("type", .str "supervisor_decided"), ("role", .str "supervisor"),
            ("task_id", .ofText e.taskId), ("action", decision.field "action"),
            ("reasoning", (decision.field "reasoning").or (.str ""))]
      else none)
  | .chatModelStream content => do
      let text ← streamedText content
      .ok (if text = "" then none
        else some [("type", .str "token"), ("role", .ofText (inferRoleFromMetadata e)),
          ("task_id", .ofText e.taskId), ("text", .str text)])
  | .toolStart input =>
      .ok (some [("type", .str "tool_call"),
        ("role", (Value.ofText (inferRoleFromMetadata e)).or (.str "developer")),
        ("task_id", .ofText e.taskId), ("tool", .str e.name),
        ("args", .str (truncateText input 200))])
  | .toolEnd output =>
      .ok (some [("type", .str "tool_result"),
        ("role", (Value.ofText (inferRoleFromMetadata e)).or (.str "developer")),
        ("task_id", .ofText e.taskId), ("tool", .str e.name),
        ("preview", .str (truncateText (toolOutputText output) 200))])
  | .chatModelEnd usage =>
      .ok (usage.map fun usage =>
        [("type", .str "usage"), ("role", .ofText (inferRoleFromMetadata e)),
          ("task_id", .ofText e.taskId), ("input_tokens", .int (usage.inputTokens.getD 0)),
          ("output_tokens", .int (usage.outputTokens.getD 0))])
  | .other _ => .ok none

/-- The frame `produce` yields for a formatted event. -/
def formattedFrame (d : List (String × Value)) : Frame :=
  ⟨((d.lookup "type").bind Value.asStr?).getD "", .dict d⟩

/-! ## The contract -/

/-- The roles of the contract. -/
inductive UiRole
  | planner | developer | reviewer | delivery
  deriving DecidableEq, Repr

namespace UiRole

def role : UiRole → Role
  | planner => .planner
  | developer => .developer
  | reviewer => .reviewer
  | delivery => .delivery

def text (r : UiRole) : String := r.role.text

theorem mem_roleNames {name : String} : name ∈ roleNames ↔ ∃ r : UiRole, r.text = name := by
  constructor
  · intro h
    simp only [roleNames, List.mem_cons, List.not_mem_nil, or_false] at h
    rcases h with rfl | rfl | rfl | rfl
    · exact ⟨planner, rfl⟩
    · exact ⟨developer, rfl⟩
    · exact ⟨reviewer, rfl⟩
    · exact ⟨delivery, rfl⟩
  · rintro ⟨r, rfl⟩
    cases r <;> decide

end UiRole

/-- What a message of the API says, by its type. -/
inductive UiBody
  | nodeStart (role : UiRole)
  | nodeEnd (role : UiRole) (summary : List (String × Value))
  | token (role : Option UiRole) (text : String)
  | toolCall (role : UiRole) (tool args : String)
  | toolResult (role : UiRole) (tool preview : String)
  | usage (role : Option UiRole) (inputTokens outputTokens : Int)
  | verificationCompleted (passed : Bool) (exitCode : Option Int) (round : Nat)
  | supervisorDecided (action : StuckAction) (reasoning : String)

namespace UiBody

def type : UiBody → String
  | nodeStart _ => "node_start"
  | nodeEnd _ _ => "node_end"
  | token _ _ => "token"
  | toolCall _ _ _ => "tool_call"
  | toolResult _ _ _ => "tool_result"
  | usage _ _ _ => "usage"
  | verificationCompleted _ _ _ => "verification_completed"
  | supervisorDecided _ _ => "supervisor_decided"

/-- The role that is sent, which need not be one of the contract's four. -/
def role : UiBody → Option Role
  | nodeStart r | nodeEnd r _ | toolCall r _ _ | toolResult r _ _ => some r.role
  | token r _ | usage r _ _ => r.map UiRole.role
  | verificationCompleted _ _ _ => some .verifier
  | supervisorDecided _ _ => some .supervisor

/-- The keys beside type, role and task id. -/
def payload : UiBody → List (String × Value)
  | nodeStart _ => []
  | nodeEnd _ summary => [("summary", .dict summary)]
  | token _ text => [("text", .str text)]
  | toolCall _ tool args => [("tool", .str tool), ("args", .str args)]
  | toolResult _ tool preview => [("tool", .str tool), ("preview", .str preview)]
  | usage _ inputTokens outputTokens =>
      [("input_tokens", .int inputTokens), ("output_tokens", .int outputTokens)]
  | verificationCompleted passed exitCode round =>
      [("passed", .bool passed), ("exit_code", .ofInt exitCode), ("round", .int round)]
  | supervisorDecided action reasoning =>
      [("action", .str action.text), ("reasoning", .str reasoning)]

end UiBody

/-- A message of the API. -/
structure UiEvent where
  taskId : Option String
  body : UiBody

/-- The dictionary of a message. -/
def UiEvent.dict (u : UiEvent) : List (String × Value) :=
  [("type", .str u.body.type), ("role", .ofText (u.body.role.map Role.text)),
    ("task_id", .ofText u.taskId)] ++ u.body.payload

/-! ## Every formatted event keeps it -/

@[simp] theorem Surfaced.field_of (key : String) (dumped : Bool) (fields : List (String × Value)) :
    (Surfaced.of dumped fields).field key = (fields.lookup key).getD .none := by
  cases dumped <;> rfl

theorem Value.int_or_zero (n : Nat) : (Value.int n).or (.int 0) = .int n := by
  unfold Value.or
  split_ifs with h
  · rfl
  · simp only [Value.truthy, bne_iff_ne, ne_eq, Decidable.not_not] at h
    rw [h]

theorem Value.str_or_empty (s : String) : (Value.str s).or (.str "") = .str s := by
  unfold Value.or
  split_ifs with h
  · rfl
  · simp only [Value.truthy, bne_iff_ne, ne_eq, Decidable.not_not] at h
    rw [h]

/-- A role that is inferred is one of the contract's. -/
theorem exists_inferredRole (e : StreamEvent) :
    ∃ r : Option UiRole, inferRoleFromMetadata e = r.map UiRole.text := by
  have hknown : ∀ name, name ∈ roleNames → ∃ r : Option UiRole, some name = r.map UiRole.text := by
    intro name hname
    obtain ⟨r, rfl⟩ := UiRole.mem_roleNames.mp hname
    exact ⟨some r, rfl⟩
  unfold inferRoleFromMetadata
  dsimp only
  split
  · rename_i role hrole
    exact hknown role (List.mem_of_find?_eq_some hrole)
  · split
    · exact ⟨none, rfl⟩
    · rename_i parent _
      split_ifs with hparent _ hbase
      · exact hknown parent hparent
      · exact hknown _ hbase
      · exact ⟨none, rfl⟩
      · exact ⟨none, rfl⟩

/-- A tool event without an inferred role is the developer's. -/
theorem exists_toolRole (e : StreamEvent) :
    ∃ r : UiRole, (Value.ofText (inferRoleFromMetadata e)).or (.str "developer") = .str r.text := by
  obtain ⟨r, hr⟩ := exists_inferredRole e
  rw [hr]
  cases r with
  | none => exact ⟨.developer, rfl⟩
  | some r =>
      refine ⟨r, ?_⟩
      cases r <;> rfl

/-- **Every dictionary is a message of the contract.** -/
theorem exists_uiEvent {e : StreamEvent} {d : List (String × Value)}
    (h : formatStreamEvent e = .ok (some d)) : ∃ u : UiEvent, d = u.dict := by
  unfold formatStreamEvent at h
  split at h
  · -- chainStart
    rw [Except.ok.injEq] at h
    split_ifs at h with hname
    obtain ⟨r, hr⟩ := UiRole.mem_roleNames.mp hname
    refine ⟨⟨e.taskId, .nodeStart r⟩, ?_⟩
    rw [← Option.some.inj h, ← hr]
    rfl
  · -- chainEnd
    rename_i output dumped _
    rw [Except.ok.injEq] at h
    split_ifs at h with hname
    · obtain ⟨r, hr⟩ := UiRole.mem_roleNames.mp hname
      refine ⟨⟨e.taskId, .nodeEnd r (summarizeNodeOutput e.name (output.getD {}) dumped)⟩, ?_⟩
      rw [← Option.some.inj h, ← hr]
      rfl
    · obtain ⟨v, -, rfl⟩ := Option.map_eq_some_iff.mp h
      refine ⟨⟨e.taskId, .verificationCompleted v.passed v.exitCode v.round⟩, ?_⟩
      have hround : ((Surfaced.of dumped v.modelDump).field "round").or (.int 0)
          = .int v.round := by
        rw [Surfaced.field_of]
        exact Value.int_or_zero v.round
      simp only [hround]
      cases dumped <;> rfl
    · obtain ⟨decision, -, rfl⟩ := Option.map_eq_some_iff.mp h
      refine ⟨⟨e.taskId, .supervisorDecided decision.action decision.reasoning⟩, ?_⟩
      have hreasoning : ((Surfaced.of dumped decision.modelDump).field "reasoning").or (.str "")
          = .str decision.reasoning := by
        rw [Surfaced.field_of]
        exact Value.str_or_empty decision.reasoning
      simp only [hreasoning]
      cases dumped <;> rfl
  · -- chatModelStream
    obtain ⟨text, -, h⟩ := Fallible.bind_eq_ok h
    rw [Except.ok.injEq] at h
    split_ifs at h
    obtain ⟨r, hr⟩ := exists_inferredRole e
    refine ⟨⟨e.taskId, .token r text⟩, ?_⟩
    rw [← Option.some.inj h, hr]
    cases r <;> rfl
  · -- toolStart
    rename_i input _
    obtain ⟨r, hr⟩ := exists_toolRole e
    refine ⟨⟨e.taskId, .toolCall r e.name (truncateText input 200)⟩, ?_⟩
    rw [← Option.some.inj (Except.ok.inj h), hr]
    rfl
  · -- toolEnd
    rename_i output _
    obtain ⟨r, hr⟩ := exists_toolRole e
    refine ⟨⟨e.taskId, .toolResult r e.name (truncateText (toolOutputText output) 200)⟩, ?_⟩
    rw [← Option.some.inj (Except.ok.inj h), hr]
    rfl
  · -- chatModelEnd
    obtain ⟨usage, -, rfl⟩ := Option.map_eq_some_iff.mp (Except.ok.inj h)
    obtain ⟨r, hr⟩ := exists_inferredRole e
    refine ⟨⟨e.taskId, .usage r (usage.inputTokens.getD 0) (usage.outputTokens.getD 0)⟩, ?_⟩
    rw [hr]
    cases r <;> rfl
  · -- other
    cases Except.ok.inj h

end AgentRoom
