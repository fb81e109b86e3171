import AgentRoom.Tools.Policy
import AgentRoom.Lib.Fallible

set_option autoImplicit false

/-! # The approval gate in front of every tool call

In `approval` mode each call of a tool node first asks for a decision by interrupting the
node. The node is executed again from its start on every resume, and its `k`-th interrupt
is answered by the `k`-th decision recorded so far; the first interrupt without a decision
aborts the execution and discards what it wrote, but not the tool bodies it had started.
-/

namespace AgentRoom

/-- A resume value. -/
inductive Decision
  | str (s : String)
  /-- A dictionary; of its action only the lower case is read. -/
  | dict (loweredAction : String) (message : Option String)
  deriving DecidableEq, Repr

inductive Verdict
  | approve
  | deny (message : String)
  deriving DecidableEq, Repr

/-- `_APPROVE_TOKENS`. -/
def approveTokens : List String := ["approve", "approved", "yes", "y", "ok"]

/-- `_DENY_TOKENS`. -/
def denyTokens : List String := ["deny", "denied", "no", "n", "reject", "rejected"]

/-- `_classify_decision`. -/
def classifyDecision : Decision → Verdict
  | .dict action message =>
      if action ∈ approveTokens then .approve
      else if action ∈ denyTokens then
        .deny (if Py.truthy message then Py.orEmpty message else "Tool call denied by reviewer.")
      else .deny ("Unknown decision action: " ++ Py.repr action ++ ". Treating as denied.")
  | .str s =>
      let token := Py.lower (Py.strip s)
      if token ∈ approveTokens then .approve
      else if token ∈ denyTokens then .deny "Tool call denied by reviewer."
      else .deny "Tool call denied (no valid decision provided)."

/-- The synthetic answer to a denied call. -/
def denialMessage (call : ToolCall) (message : String) : ToolMessage :=
  { content := .str message, toolCallId := call.id, name := some call.name, status := .error }

/-- `execute(req)` behind the gate. The tool node's own default answers refused arguments
with a message; any other error leaves the node. -/
def executeApproved (tools : List Tool) (b : Bindings) (w : World) (call : ToolCall) :
    Except NodeError ToolMessage :=
  if hasTool tools call then
    match runTool b w call with
    | .ok content => .ok { content := content, toolCallId := call.id, name := some call.name }
    | .error (.invalidArgs reason) =>
        .ok { content := .str reason, toolCallId := call.id, name := some call.name,
              status := .error }
    | .error (.guardrail finding) => .error (.guardrailTripwire finding)
    | .error (.other reason) => .error (.raised reason)
  else .ok (invalidToolMessage tools call)

/-- The wrapper's work on one call once its decision is known. -/
def answerCall (tools : List Tool) (b : Bindings) (w : World) (call : ToolCall) (d : Decision) :
    Except NodeError ToolMessage :=
  match classifyDecision d with
  | .approve => executeApproved tools b w call
  | .deny message => .ok (denialMessage call message)

/-- The calls whose body an execution of the node starts, given the decisions so far. -/
def approvedCalls (tools : List Tool) (calls : List ToolCall) (resumes : List Decision) :
    List ToolCall :=
  ((calls.zip resumes).filter
    (fun p => classifyDecision p.2 == .approve && hasTool tools p.1)).map Prod.fst

/-- `ToolNode(tools, awrap_tool_call=make_approval_wrapper())`. -/
def approvalToolNode (tools : List Tool) (b : Bindings) (w : World) (s : TaskState)
    (resumes : List Decision) : Except NodeError NodeRun :=
  let calls := pendingCalls s.devMessages
  match calls[resumes.length]? with
  -- the first call nobody has decided on stops the node again
  | some call =>
      .ok { toolRuns := approvedCalls tools calls resumes, interrupt := some call }
  | none => do
      let answers ← (calls.zip resumes).mapM (fun p => answerCall tools b w p.1 p.2)
      .ok { toolRuns := approvedCalls tools calls resumes
            update := { devMessages := answers.map .tool } }

/-- The first call without a decision interrupts the node. -/
theorem approvalToolNode_interrupt {s : TaskState} {resumes : List Decision} {call : ToolCall}
    (h : (pendingCalls s.devMessages)[resumes.length]? = some call) (tools : List Tool)
    (b : Bindings) (w : World) : approvalToolNode tools b w s resumes = .ok
      { toolRuns := approvedCalls tools (pendingCalls s.devMessages) resumes
        interrupt := some call } := by
  simp only [approvalToolNode, h]

/-- What a gated tool node did: it stopped at the first call without a decision, or answered
every call. -/
theorem approvalToolNode_ok {tools : List Tool} {b : Bindings} {w : World} {s : TaskState}
    {resumes : List Decision} {run : NodeRun}
    (h : approvalToolNode tools b w s resumes = .ok run) :
    (∃ call, (pendingCalls s.devMessages)[resumes.length]? = some call ∧
      run = { toolRuns := approvedCalls tools (pendingCalls s.devMessages) resumes
              interrupt := some call }) ∨
    (∃ answers, (pendingCalls s.devMessages)[resumes.length]? = none ∧
      ((pendingCalls s.devMessages).zip resumes).mapM
        (fun p => answerCall tools b w p.1 p.2) = .ok answers ∧
      run = { toolRuns := approvedCalls tools (pendingCalls s.devMessages) resumes
              update := { devMessages := answers.map .tool } }) := by
  simp only [approvalToolNode] at h
  split at h
  · rename_i call hcall
    cases h
    exact .inl ⟨call, hcall, rfl⟩
  · rename_i hnone
    obtain ⟨answers, hanswers, h⟩ := Fallible.bind_eq_ok h
    exact .inr ⟨answers, hnone, hanswers, (Except.ok.inj h).symm⟩

/-! ## What the gate answers -/

/-- An answer carries the id of its call. -/
theorem answerCall_toolCallId {tools : List Tool} {b : Bindings} {w : World} {call : ToolCall}
    {d : Decision} {t : ToolMessage} (h : answerCall tools b w call d = .ok t) :
    t.toolCallId = call.id := by
  unfold answerCall at h
  split at h
  · unfold executeApproved at h
    split at h
    · split at h <;> cases h <;> rfl
    · cases h
      rfl
  · cases h
    rfl

/-- The answers of a completed batch carry the ids of its calls, in order. -/
theorem answers_toolCallId {tools : List Tool} {b : Bindings} {w : World} {calls : List ToolCall}
    {resumes : List Decision} {answers : List ToolMessage} (hall : calls.length ≤ resumes.length)
    (h : (calls.zip resumes).mapM (fun p => answerCall tools b w p.1 p.2) = .ok answers) :
    answers.map ToolMessage.toolCallId = calls.map ToolCall.id :=
  calc answers.map ToolMessage.toolCallId
      = (calls.zip resumes).map (fun p => p.1.id) :=
        Fallible.map_eq_of_mapM_ok (fun _ _ => answerCall_toolCallId) h
    _ = ((calls.zip resumes).map Prod.fst).map ToolCall.id := by rw [List.map_map]; rfl
    _ = calls.map ToolCall.id := by rw [List.map_fst_zip hall]

/-- Each call of a completed batch has been answered under its own id. -/
theorem exists_answer {tools : List Tool} {b : Bindings} {w : World} {calls : List ToolCall}
    {resumes : List Decision} {answers : List ToolMessage}
    (hall : calls[resumes.length]? = none)
    (h : (calls.zip resumes).mapM (fun p => answerCall tools b w p.1 p.2) = .ok answers)
    {call : ToolCall} (hcall : call ∈ calls) : ∃ t ∈ answers, t.toolCallId = call.id := by
  obtain ⟨i, hi, rfl⟩ := List.mem_iff_getElem.mp hcall
  have hlen : calls.length ≤ resumes.length := List.getElem?_eq_none_iff.mp hall
  have hmem : (calls[i], resumes[i]) ∈ calls.zip resumes :=
    List.mem_iff_getElem.mpr ⟨i, by simp; omega, by simp⟩
  obtain ⟨t, ht, hok⟩ := Fallible.exists_mem_of_mapM_ok h hmem
  exact ⟨t, ht, answerCall_toolCallId hok⟩

/-- The call an interrupt asks about is paired with the next decision. -/
theorem mem_zip_decision {calls : List ToolCall} {resumes : List Decision} {call : ToolCall}
    (h : calls[resumes.length]? = some call) (d : Decision) :
    (call, d) ∈ calls.zip (resumes ++ [d]) := by
  obtain ⟨hlt, rfl⟩ := List.getElem?_eq_some_iff.mp h
  exact List.mem_iff_getElem.mpr ⟨resumes.length, by simp; omega, by simp⟩

end AgentRoom
